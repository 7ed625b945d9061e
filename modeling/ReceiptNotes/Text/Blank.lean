import ReceiptNotes.Text.Basic

/-! # Blank characters

Blank means the Unicode property White_Space. The property decides which runs
are whitespace in markup, which lines count as empty and what is trimmed from a
subject. Every character that the core library calls whitespace is blank
(`isBlank_of_isWhitespace`).
-/

namespace ReceiptNotes.Text

/-- The Unicode property White_Space: twenty-five characters. -/
def isBlank (c : Char) : Bool :=
  let n := c.toNat
  (0x09 ≤ n && n ≤ 0x0D) || n == 0x20 || n == 0x85 || n == 0xA0 || n == 0x1680 ||
    (0x2000 ≤ n && n ≤ 0x200A) || n == 0x2028 || n == 0x2029 || n == 0x202F ||
    n == 0x205F || n == 0x3000

theorem isBlank_of_isWhitespace {c : Char} (h : c.isWhitespace = true) : isBlank c = true := by
  simp only [Char.isWhitespace, Bool.or_eq_true, decide_eq_true_eq] at h
  rcases h with ((rfl | rfl) | rfl) | rfl <;> decide

/-- A line is blank when all its characters are, so the empty line is blank. -/
def isBlankLine (line : Text) : Bool :=
  line.all isBlank

/-- `text` without the blanks at both ends. -/
def trim (text : Text) : Text :=
  dropEndWhile isBlank (text.dropWhile isBlank)

end ReceiptNotes.Text
