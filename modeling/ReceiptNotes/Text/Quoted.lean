import ReceiptNotes.Text.Numeral
import ReceiptNotes.Text.Printable

/-! # Quoted characters

How a single character is shown in an error message: between apostrophes, with
an escape where the character would not be visible or would end the quotation.
-/

namespace ReceiptNotes.Text

/-- A character between the apostrophes of a quotation. The double quotation mark
needs no escape there. -/
def escaped (c : Char) : Text :=
  if c = '\x00' then ['\\', '0']
  else if c = '\t' then ['\\', 't']
  else if c = '\r' then ['\\', 'r']
  else if c = '\n' then ['\\', 'n']
  else if c = '\x27' || c = '\\' then ['\\', c]
  else if isPrintable c then [c]
  else ['\\', 'u', '\x7b'] ++ hexadecimal c.toNat ++ ['\x7d']

def quoted (c : Char) : Text :=
  ['\x27'] ++ escaped c ++ ['\x27']

end ReceiptNotes.Text
