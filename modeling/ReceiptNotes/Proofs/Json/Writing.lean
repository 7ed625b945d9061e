import ReceiptNotes.Json.Quoted
import ReceiptNotes.Proofs.Json.Literal

/-! # What is written is a written form

A text with its characters escaped is a string that spells this text
(`Json.writtenString_quoted`), and members with commas between them are the members of an
object (`Json.written_intercalate`).
-/

namespace ReceiptNotes.Json

variable {units : List Unit16} {spelled body : Text}

/-! ## Strings -/

theorem length_zeroPadded_hexadecimal {width n : ℕ} (hwidth : 0 < width) (h : n < 16 ^ width) :
    (Text.zeroPadded width (Text.hexadecimal n)).length = width := by
  rw [Text.zeroPadded, List.length_leftpad]
  exact max_eq_left ((Text.length_hexadecimal_le_iff hwidth).mpr h)

theorem WrittenUnits.code_append {n : ℕ} {digits : Text} (hlength : digits.length = 4)
    (hvalue : Text.hexValue? digits = some n) (h : WrittenUnits units body) :
    WrittenUnits (.code n :: units) (['\\', 'u'] ++ digits ++ body) :=
  match digits, hlength with
  | [_, _, _, _], _ => .code hvalue h

/-- A character as it is written stands for this character, in front of any other units. -/
theorem written_escaped_append (c : Char) (h : WrittenUnits units body)
    (hspells : Spells units spelled) :
    ∃ unit, WrittenUnits (unit :: units) (escaped c ++ body) ∧
      Spells (unit :: units) (c :: spelled) := by
  unfold escaped
  split
  iterate 7 exact ⟨.char _, .escape (by decide) h, .char hspells⟩
  next hquote hbackslash _ _ _ _ _ =>
    split
    next hcontrol =>
      have hlength : (Text.zeroPadded 4 (Text.hexadecimal c.toNat)).length = 4 :=
        length_zeroPadded_hexadecimal (by decide) (by omega)
      exact ⟨.code c.toNat, .code_append hlength (Text.hexValue?_zeroPadded 4 c.toNat) h,
        .code hspells⟩
    next hplain =>
      exact ⟨.char c, .plain (by omega) hquote hbackslash h, .char hspells⟩

/-- A text between quotation marks is a string with the text as its content. -/
theorem writtenString_quoted (text : Text) : WrittenString (some text) (quoted text) := by
  obtain ⟨units, hwritten, hspells⟩ :
      ∃ units, WrittenUnits units (text.flatMap escaped) ∧ Spells units text := by
    induction text with
    | nil => exact ⟨[], .nil, .nil⟩
    | cons c text ih =>
        obtain ⟨units, hwritten, hspells⟩ := ih
        obtain ⟨unit, hunit⟩ := written_escaped_append c hwritten hspells
        exact ⟨unit :: units, hunit⟩
  have hstring := hwritten.writtenString
  rwa [content?_of_spells hspells] at hstring

/-! ## Objects -/

theorem blank_nil : Blank [] := by
  decide

theorem writtenKey_quoted (label : Text) : WrittenKey (some label) (quoted label) :=
  ⟨[], quoted label, [], blank_nil, writtenString_quoted label, blank_nil, by simp⟩

/-- A value without whitespace around it. -/
theorem Written.compact {json : Json} {text : Text} (h : Written (.value json) text) :
    Written (.spaced json) text := by
  simpa using Written.spaced blank_nil h blank_nil

/-- Members that are written one by one are written as a whole with commas in between. -/
theorem written_intercalate {α : Type} {key : α → Content} {json : α → Json}
    {label value : α → Text} (hkey : ∀ entry, WrittenKey (key entry) (label entry))
    (hvalue : ∀ entry, Written (.spaced (json entry)) (value entry)) {entries : List α}
    (hne : entries ≠ []) :
    Written (.members (entries.map fun entry => (key entry, json entry)))
      ([','].intercalate (entries.map fun entry => label entry ++ [':'] ++ value entry)) := by
  induction entries with
  | nil => exact absurd rfl hne
  | cons entry entries ih =>
      by_cases hlast : entries = []
      · simpa [hlast] using Written.lastMember (hkey entry) (hvalue entry)
      · rw [List.map_cons, List.map_cons, List.intercalate_cons_of_ne_nil (by simpa using hlast)]
        exact .member (hkey entry) (hvalue entry) (ih hlast)

end ReceiptNotes.Json
