import Mathlib.Logic.Function.Iterate
import ReceiptNotes.Markup.Scan
import ReceiptNotes.Proofs.Markup.Matching

/-! # The scanner recognises the grammar

A scanner that goes over a line stands between two characters of it, and knows the
number of bytes before its place. Wherever it stands, every rule matches exactly where
its kind can be read, and the token it yields is the preferred reading of the first
declared kind (`Scanner.recognises_grammar`).
-/

namespace ReceiptNotes.Markup.Scanner

open Text (byteLength)

variable {line : Text} {scanner after : Scanner} {item : Item}

/-- The scanner after one more item; it stays where it is after the last. -/
def advance (scanner : Scanner) : Scanner :=
  (scanner.next?.map Prod.snd).getD scanner

/-- What the grammar says about a place: the item that is to be read there, and the
place behind it. -/
inductive Yields (scanner : Scanner) : Item → Scanner → Prop where
  | endOfLine (hrest : scanner.rest = []) :
      Yields scanner (.ok ⟨.endOfInput, .nothing, scanner.position, scanner.position⟩)
        { scanner with finished := true }
  | token {kind : Kind} {found : Match}
      (hfound : FirstDeclared (scanner.position == 0) scanner.rest kind found) :
      Yields scanner
        (.ok ⟨kind, found.payload, scanner.position,
          scanner.position + byteLength found.lexeme⟩)
        { scanner with
          position := scanner.position + byteLength found.lexeme, rest := found.rest }
  | rejection {c : Char} {text : Text} (hrest : scanner.rest = c :: text)
      (hnone : ∀ kind ∈ Kind.declared,
        ¬ Occurs (scanner.position == 0) scanner.rest kind) :
      Yields scanner (.error ⟨scanner.position, c⟩) { scanner with finished := true }

/-- The rest of a scanner is what `line` has behind the bytes before its place. -/
def Within (line : Text) (scanner : Scanner) : Prop :=
  ∃ before, line = before ++ scanner.rest ∧ scanner.position = byteLength before

/-- At its place, a scanner of `line` goes by the grammar. -/
structure Recognises (line : Text) (scanner : Scanner) : Prop where
  within : scanner.Within line
  /-- A rule matches where its kind can be read, and nowhere else. -/
  matches_iff : ∀ rule ∈ rules,
    (rule.attempt? (scanner.position == 0) scanner.rest).isSome ↔
      Occurs (scanner.position == 0) scanner.rest rule.kind
  /-- Of all readings of its kind a rule takes the preferred one. -/
  takes_iff : ∀ rule ∈ rules, ∀ found,
    rule.attempt? (scanner.position == 0) scanner.rest = some found ↔
      Preferred (scanner.position == 0) scanner.rest rule.kind found
  /-- Nothing is yielded after the end of the line or a rejection, and only then. -/
  ends_iff : scanner.next? = none ↔ scanner.finished = true
  /-- Of all kinds that can be read, the first declared one is yielded. -/
  yields_iff : ∀ item after,
    scanner.next? = some (item, after) ↔ scanner.finished = false ∧ scanner.Yields item after

end ReceiptNotes.Markup.Scanner

namespace ReceiptNotes.Markup

theorem FirstDeclared.reading {atStart : Bool} {text : Text} {kind : Kind} {found : Match}
    (h : FirstDeclared atStart text kind found) :
    ∃ rank, Reading atStart text kind found rank := by
  obtain ⟨_, _, -, -, rank, hread, -⟩ := h
  exact ⟨rank, hread⟩

theorem FirstDeclared.text_ne_nil {atStart : Bool} {text : Text} {kind : Kind} {found : Match}
    (h : FirstDeclared atStart text kind found) : text ≠ [] := by
  obtain ⟨rank, hread⟩ := h.reading
  rw [hread.splits]
  simp [hread.form.lexeme_ne_nil]

end ReceiptNotes.Markup

namespace ReceiptNotes.Markup.Scanner

variable {line : Text} {scanner after : Scanner} {item : Item}

theorem yields_of_next? (h : scanner.next? = some (item, after)) :
    scanner.Yields item after := by
  unfold next? at h
  split at h
  · simp at h
  split at h
  next hrest =>
      obtain ⟨rfl, rfl⟩ := Prod.mk.inj (Option.some.inj h)
      exact .endOfLine hrest
  next c text hrest =>
      split at h
      next kind found hfound =>
          obtain ⟨rfl, rfl⟩ := Prod.mk.inj (Option.some.inj h)
          exact .token (firstMatch?_eq_some_iff.mp hfound)
      next hnone =>
          obtain ⟨rfl, rfl⟩ := Prod.mk.inj (Option.some.inj h)
          exact .rejection hrest (firstMatch?_eq_none_iff.mp hnone)

theorem next?_of_yields (hopen : scanner.finished = false) (h : scanner.Yields item after) :
    scanner.next? = some (item, after) := by
  rw [next?, hopen, if_neg Bool.false_ne_true]
  cases h with
  | endOfLine hrest => rw [hrest]
  | token hfound =>
      -- A reading takes at least one character, so this place is not the end of the line.
      have hmatch := firstMatch?_eq_some_iff.mpr hfound
      have hne := hfound.text_ne_nil
      split
      next hrest => exact absurd hrest hne
      next => rw [hmatch, hopen]
  | rejection hrest hnone =>
      have hmatch := firstMatch?_eq_none_iff.mpr hnone
      rw [hmatch, hrest]

/-- An open scanner yields what the grammar says, and a finished one nothing. -/
theorem next?_eq_some_iff :
    scanner.next? = some (item, after) ↔
      scanner.finished = false ∧ scanner.Yields item after := by
  constructor
  · intro h
    refine ⟨?_, yields_of_next? h⟩
    by_contra hfinished
    rw [next?, if_pos (by simpa using hfinished)] at h
    simp at h
  · intro h
    obtain ⟨hopen, hyields⟩ := h
    exact next?_of_yields hopen hyields

theorem next?_eq_none_iff : scanner.next? = none ↔ scanner.finished = true := by
  constructor
  · intro h
    by_contra hopen
    rw [next?, if_neg hopen] at h
    split at h
    · simp at h
    · split at h <;> simp at h
  · intro h
    rw [next?, if_pos h]

theorem Within.ofLine (line : Text) : (ofLine line).Within line :=
  ⟨[], rfl, rfl⟩

/-- What an item takes off the rest is added to what is before it. -/
theorem Within.of_yields (h : scanner.Within line) (hyields : scanner.Yields item after) :
    after.Within line := by
  obtain ⟨before, hline, hposition⟩ := h
  cases hyields with
  | endOfLine => exact ⟨before, hline, hposition⟩
  | @token kind found hfound =>
      obtain ⟨rank, hread⟩ := hfound.reading
      refine ⟨before ++ found.lexeme, ?_, ?_⟩
      · rw [hline, hread.splits, List.append_assoc]
      · rw [Text.byteLength_append, hposition]
  | rejection => exact ⟨before, hline, hposition⟩

theorem Within.advance (h : scanner.Within line) : scanner.advance.Within line := by
  rw [Scanner.advance]
  cases hnext : scanner.next? with
  | none => exact h
  | some pair => exact h.of_yields (yields_of_next? hnext)

theorem within_iterate (line : Text) (steps : ℕ) :
    (Scanner.advance^[steps] (Scanner.ofLine line)).Within line := by
  induction steps with
  | zero => exact Within.ofLine line
  | succ steps ih =>
      rw [Function.iterate_succ_apply']
      exact ih.advance

/-- Over every line and after any number of items, a scanner goes by the grammar. -/
theorem recognises_grammar (line : Text) (steps : ℕ) :
    (Scanner.advance^[steps] (ofLine line)).Recognises line where
  within := within_iterate line steps
  matches_iff _ hrule := (Rule.attempt?_decides hrule).isSome_iff
  takes_iff _ hrule _ := (Rule.attempt?_decides hrule).eq_some_iff
  ends_iff := next?_eq_none_iff
  yields_iff _ _ := next?_eq_some_iff

end ReceiptNotes.Markup.Scanner
