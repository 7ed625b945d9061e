/-! # Texts

Notes, markup and output are handled as lists of characters. This module names
that type, measures it in bytes of its UTF-8 form, and takes fixed marks and runs
of characters off its front. What has been taken and what remains are the text
again (`after?_eq_some_iff`, `run?_eq`).
-/

namespace ReceiptNotes

/-- A text is its list of characters. -/
abbrev Text := List Char

/-- A stretch of bytes, as sent to a printer or kept in a file. -/
abbrev Bytes := List UInt8

namespace Text

/-- The number of bytes of a text in UTF-8. -/
def byteLength (text : Text) : Nat :=
  text.foldr (fun c bytes => c.utf8Size + bytes) 0

@[simp]
theorem byteLength_nil : byteLength [] = 0 := rfl

@[simp]
theorem byteLength_cons (c : Char) (text : Text) :
    byteLength (c :: text) = c.utf8Size + byteLength text := rfl

@[simp]
theorem byteLength_append (first second : Text) :
    byteLength (first ++ second) = byteLength first + byteLength second := by
  induction first with
  | nil => simp
  | cons c first ih => simp [ih, Nat.add_assoc]

/-- What follows `mark` in a text that starts with it. -/
def after? : (mark text : Text) → Option Text
  | [], text => some text
  | _ :: _, [] => none
  | m :: mark, c :: text => if m = c then after? mark text else none

/-- Exactly the texts that start with the mark have a remainder, and putting the
mark back in front of it gives the text again. -/
theorem after?_eq_some_iff {mark text rest : Text} :
    after? mark text = some rest ↔ text = mark ++ rest := by
  induction mark generalizing text with
  | nil => simp [after?]
  | cons m mark ih =>
      cases text with
      | nil => simp [after?]
      | cons c text =>
          by_cases h : m = c
          · simp [after?, h, ih]
          · simp [after?, h, Ne.symm h]

@[simp]
theorem after?_append (mark rest : Text) : after? mark (mark ++ rest) = some rest :=
  after?_eq_some_iff.mpr rfl

/-- A search for the first element outside a class stops where the class ends. -/
theorem span_append {α : Type} {p : α → Bool} {front rest : List α}
    (inside : ∀ a ∈ front, p a) (stop : ∀ a ∈ rest.head?, ¬ p a) :
    (front ++ rest).takeWhile p = front ∧ (front ++ rest).dropWhile p = rest := by
  rw [List.takeWhile_append_of_pos inside, List.dropWhile_append_of_pos inside]
  cases rest with
  | nil => simp
  | cons a rest => simp [stop a rfl]

/-- The longest non-empty front part of `text` whose characters satisfy `p`, and
the remainder. -/
def run? (p : Char → Bool) (text : Text) : Option (Text × Text) :=
  match text.takeWhile p with
  | [] => none
  | taken => some (taken, text.dropWhile p)

/-- What `run?` takes is not empty, of the class, and followed by no character of
the class. -/
theorem run?_eq {p : Char → Bool} {text taken rest : Text}
    (h : run? p text = some (taken, rest)) :
    taken ≠ [] ∧ text = taken ++ rest ∧ taken = text.takeWhile p ∧
      rest = text.dropWhile p := by
  unfold run? at h
  split at h
  · simp at h
  next hne =>
      simp only [Option.some.injEq, Prod.mk.injEq] at h
      obtain ⟨rfl, rfl⟩ := h
      exact ⟨hne, List.takeWhile_append_dropWhile.symm, rfl, rfl⟩

theorem run?_append {p : Char → Bool} {taken rest : Text} (hne : taken ≠ [])
    (htaken : ∀ c ∈ taken, p c) (hrest : ∀ c ∈ rest.head?, ¬ p c) :
    run? p (taken ++ rest) = some (taken, rest) := by
  obtain ⟨hrun, hbehind⟩ := span_append htaken hrest
  unfold run?
  rw [hrun, hbehind]
  cases taken with
  | nil => exact absurd rfl hne
  | cons c taken => rfl

/-- `text` without its last characters while they satisfy `drop`. -/
def dropEndWhile (drop : Char → Bool) (text : Text) : Text :=
  (text.reverse.dropWhile drop).reverse

end Text

end ReceiptNotes
