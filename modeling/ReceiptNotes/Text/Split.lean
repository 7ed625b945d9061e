import ReceiptNotes.Text.Basic

/-! # Splitting at a character

The two sides of the last occurrence of a character. With the character between them
they are the text again, and the character is not in the second one
(`splitLast?_eq_some_iff`). Pieces that are put together with something between them have
no other characters than these (`forall_mem_intercalate`).
-/

namespace ReceiptNotes.Text

/-- A text before and behind the last occurrence of a character. -/
def splitLast? (separator : Char) : Text → Option (Text × Text)
  | [] => none
  | c :: text =>
      match splitLast? separator text with
      | some (before, behind) => some (c :: before, behind)
      | none => if c = separator then some ([], text) else none

theorem splitLast?_eq_none_iff {separator : Char} {text : Text} :
    splitLast? separator text = none ↔ separator ∉ text := by
  induction text with
  | nil => simp [splitLast?]
  | cons c text ih =>
      cases h : splitLast? separator text with
      | none =>
          rw [h] at ih
          by_cases hc : c = separator
          · simp [splitLast?, h, hc]
          · simp [splitLast?, h, hc, Ne.symm hc, ih.mp]
      | some sides =>
          rw [h] at ih
          have hmem : separator ∈ text := Classical.byContradiction fun hnot => by
            simpa using ih.mpr hnot
          simp [splitLast?, h, hmem]

theorem splitLast?_eq_some_iff {separator : Char} {text before behind : Text} :
    splitLast? separator text = some (before, behind) ↔
      text = before ++ separator :: behind ∧ separator ∉ behind := by
  induction text generalizing before with
  | nil => simp [splitLast?]
  | cons c text ih =>
      cases h : splitLast? separator text with
      | none =>
          have hnot := splitLast?_eq_none_iff.mp h
          constructor
          · intro hsplit
            simp only [splitLast?, h] at hsplit
            split at hsplit
            next hc =>
                simp only [Option.some.injEq, Prod.mk.injEq] at hsplit
                obtain ⟨rfl, rfl⟩ := hsplit
                exact ⟨by simp [hc], hnot⟩
            · simp at hsplit
          · rintro ⟨htext, -⟩
            cases before with
            | nil =>
                simp only [List.nil_append, List.cons.injEq] at htext
                obtain ⟨rfl, rfl⟩ := htext
                simp [splitLast?, h]
            | cons d before =>
                simp only [List.cons_append, List.cons.injEq] at htext
                simp [htext.2] at hnot
      | some sides =>
          obtain ⟨first, second⟩ := sides
          simp only [splitLast?, h, Option.some.injEq, Prod.mk.injEq]
          constructor
          · rintro ⟨rfl, rfl⟩
            rw [h] at ih
            have := ih.mp rfl
            exact ⟨by simp [this.1], this.2⟩
          · rintro ⟨htext, hbehind⟩
            cases before with
            | nil =>
                simp only [List.nil_append, List.cons.injEq] at htext
                obtain ⟨rfl, rfl⟩ := htext
                rw [splitLast?_eq_none_iff.mpr hbehind] at h
                simp at h
            | cons d before =>
                simp only [List.cons_append, List.cons.injEq] at htext
                have hagain := ih.mpr ⟨htext.2, hbehind⟩
                rw [h] at hagain
                simp only [Option.some.injEq, Prod.mk.injEq] at hagain
                exact ⟨by rw [htext.1, hagain.1], hagain.2⟩

theorem forall_mem_intercalate {p : Char → Prop} {between : Text} {pieces : List Text}
    (hbetween : ∀ c ∈ between, p c) (hpieces : ∀ piece ∈ pieces, ∀ c ∈ piece, p c) :
    ∀ c ∈ between.intercalate pieces, p c := by
  induction pieces with
  | nil => simp [List.intercalate_nil]
  | cons piece pieces ih =>
      obtain ⟨hfirst, hlater⟩ := List.forall_mem_cons.mp hpieces
      cases pieces with
      | nil => rwa [List.intercalate_singleton]
      | cons next pieces =>
          rw [List.intercalate_cons_cons, List.forall_mem_append, List.forall_mem_append]
          exact ⟨⟨hfirst, hbetween⟩, ih hlater⟩

end ReceiptNotes.Text
