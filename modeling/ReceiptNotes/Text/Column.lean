import ReceiptNotes.Text.Basic

/-! # Columns

Filling a line to a given width. Width is counted in characters, whatever their
size on paper.
-/

namespace ReceiptNotes.Text

/-- `text` filled in front to at least `width` characters. -/
def padStart (width : Nat) (fill : Char) (text : Text) : Text :=
  text.leftpad width fill

/-- `text` filled behind to at least `width` characters. -/
def padEnd (width : Nat) (fill : Char) (text : Text) : Text :=
  text.rightpad width fill

/-- One text at the left edge and one at the right edge of `width` columns. Texts
that do not fit stand side by side without a space. -/
def justify (left right : Text) (width : Nat) : Text :=
  left ++ padStart (width - left.length) ' ' right

/-- A horizontal rule: dashes over `width` columns. -/
def dashes (width : Nat) : Text :=
  List.replicate width '-'

@[simp]
theorem length_padStart (width : Nat) (fill : Char) (text : Text) :
    (padStart width fill text).length = max width text.length := by
  simp [padStart, List.leftpad]
  omega

/-- A justified line has the given width, or what its two parts need. -/
theorem length_justify (left right : Text) (width : Nat) :
    (justify left right width).length = max width (left.length + right.length) := by
  simp [justify]
  omega

end ReceiptNotes.Text
