import Mathlib.Data.List.Chain
import ReceiptNotes.Proofs.Session.Segments

/-! # Closing a body

A body that is to be captured as it is must not end before its last line, and that line
must not be taken for one that ends it. Such a body (`Unbroken`) needs two more blank
lines, or three if it is empty (`Closes`), and is then cut out as the body of one note
(`Draft.finished_of_closes`) from which those lines are left out (`Draft.note_of_closes`).
-/

namespace ReceiptNotes

/-- Lines end a body if the last two of them are blank and another one stands before
those. -/
theorem endsBody_iff {lines : List Text} :
    EndsBody lines ↔ ∃ before first second, lines = before ++ [first, second] ∧ before ≠ [] ∧
      Text.isBlankLine first ∧ Text.isBlankLine second := by
  constructor
  · intro h
    obtain ⟨hlength, hblank⟩ := h
    obtain ⟨first, second, hlast⟩ : ∃ first second, lines.drop (lines.length - 2) =
        [first, second] := List.length_eq_two.mp (by rw [List.length_drop]; omega)
    refine ⟨lines.take (lines.length - 2), first, second, ?_, ?_, ?_, ?_⟩
    · rw [← hlast, List.take_append_drop]
    · rw [← List.length_pos_iff, List.length_take]
      omega
    · exact hblank first (by simp [hlast])
    · exact hblank second (by simp [hlast])
  · rintro ⟨before, first, second, rfl, hbefore, hfirst, hsecond⟩
    have hpositive := List.length_pos_iff.mpr hbefore
    refine ⟨by simp; omega, ?_⟩
    intro line hline
    simp only [List.length_append, List.length_cons, List.length_nil, Nat.add_sub_cancel,
      List.drop_left, List.mem_cons, List.not_mem_nil, or_false] at hline
    rcases hline with rfl | rfl
    · exact hfirst
    · exact hsecond

/-- Lines have no blank ones at their end to drop if the last one is not blank. -/
theorem rdropWhile_isBlankLine_eq_self_iff {lines : List Text} :
    lines.rdropWhile Text.isBlankLine = lines ↔
      ∀ last ∈ lines.getLast?, ¬ Text.isBlankLine last := by
  rw [List.rdropWhile_eq_self_iff]
  constructor
  · intro h last hlast
    obtain ⟨before, rfl⟩ := List.getLast?_eq_some_iff.mp hlast
    simpa using h (List.concat_ne_nil last before)
  · intro h hne
    exact h _ (List.getLast?_eq_some_getLast hne)

/-- A body that is not cut into two, nor loses a line at its end. -/
structure Unbroken (body : List Text) : Prop where
  /-- A body with lines ends in one that is not blank. -/
  filled : ∀ last ∈ body.getLast?, ¬ Text.isBlankLine last
  /-- Behind the first line, no two blank lines meet. -/
  apart : body.tail.IsChain fun first second =>
    ¬ (Text.isBlankLine first ∧ Text.isBlankLine second)

/-- Blank lines that end a body: as many as it takes to make three. -/
structure Closes (body closing : List Text) : Prop where
  blank : ∀ line ∈ closing, Text.isBlankLine line
  length : closing.length = if body = [] then 3 else 2

variable {body closing : List Text}

/-- The body does not end before its closing lines are typed: blank lines that meet are its
first two, and the line before the closing ones is not blank. -/
theorem Unbroken.not_endsBody (h : Unbroken body) {blank : Text} {shorter : List Text}
    (hshorter : shorter <+: body ++ [blank]) : ¬ EndsBody shorter := by
  rw [endsBody_iff]
  rintro ⟨before, first, second, rfl, hbefore, hfirst, hsecond⟩
  rcases List.prefix_concat_iff.mp hshorter with hall | hinside
  · -- The last line of the body would be the first one of the two.
    have hends : body = before ++ [first] := by
      have hinit := congrArg List.dropLast hall
      simpa using hinit.symm
    exact h.filled first (by simp [hends]) hfirst
  · obtain ⟨behind, hsplit⟩ := hinside
    obtain ⟨line, before, rfl⟩ := List.exists_cons_of_ne_nil hbefore
    have hapart := h.apart
    rw [← hsplit] at hapart
    simp only [List.cons_append, List.append_assoc, List.nil_append, List.tail_cons,
      List.isChain_append_cons_cons] at hapart
    exact hapart.2.1 ⟨hfirst, hsecond⟩

namespace Draft

theorem finished_of_closes (subject : Text) (h : Unbroken body) (hcloses : Closes body closing) :
    Finished ⟨subject, body ++ closing⟩ := by
  have hlength := hcloses.length
  by_cases hbody : body = []
  · subst hbody
    rw [if_pos rfl] at hlength
    refine ⟨⟨hlength.ge, fun line hline => ?_⟩, fun shorter hshorter hne hends => ?_⟩
    · exact hcloses.blank line (List.mem_of_mem_drop hline)
    · exact hne (hshorter.eq_of_length_le (hlength.trans_le hends.1))
  · rw [if_neg hbody] at hlength
    obtain ⟨first, second, rfl⟩ := List.length_eq_two.mp hlength
    refine ⟨endsBody_iff.mpr ?_, fun shorter hshorter hne => ?_⟩
    · exact ⟨body, first, second, rfl, hbody, hcloses.blank first (by simp),
        hcloses.blank second (by simp)⟩
    · have hsplit : body ++ [first, second] = body ++ [first] ++ [second] := by simp
      simp only [hsplit] at hshorter hne
      rcases List.prefix_concat_iff.mp hshorter with hall | hinside
      · exact absurd hall hne
      · exact h.not_endsBody hinside

/-- The lines that end the body are all that is left out of the note. -/
theorem note_of_closes (subject : Text) (h : Unbroken body) (hcloses : Closes body closing)
    (moment : Timestamp) :
    note ⟨subject, body ++ closing⟩ moment = ⟨subject, moment, body⟩ := by
  have hblank : ∀ line ∈ closing.reverse, Text.isBlankLine line :=
    fun line hline => hcloses.blank line (List.mem_reverse.mp hline)
  have hdropped : (body ++ closing).rdropWhile Text.isBlankLine = body := by
    rw [List.rdropWhile, List.reverse_append, List.dropWhile_append_of_pos hblank]
    exact rdropWhile_isBlankLine_eq_self_iff.mpr h.filled
  simp only [note, hdropped]

end Draft

end ReceiptNotes
