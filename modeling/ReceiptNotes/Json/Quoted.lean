import ReceiptNotes.Text.Numeral

/-! # Writing JSON strings

Quotation marks, backslashes and control characters are escaped, the common ones of
them by a letter; everything else is written as it is.
-/

namespace ReceiptNotes.Json

def escaped (c : Char) : Text :=
  match c with
  | '"' => ['\\', '"']
  | '\\' => ['\\', '\\']
  | '\x08' => ['\\', 'b']
  | '\x0C' => ['\\', 'f']
  | '\n' => ['\\', 'n']
  | '\r' => ['\\', 'r']
  | '\t' => ['\\', 't']
  | c =>
      if c.toNat < 0x20 then ['\\', 'u'] ++ Text.zeroPadded 4 (Text.hexadecimal c.toNat)
      else [c]

def quoted (text : Text) : Text :=
  ['"'] ++ text.flatMap escaped ++ ['"']

end ReceiptNotes.Json
