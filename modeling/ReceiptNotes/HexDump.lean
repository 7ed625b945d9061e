import ReceiptNotes.Text.Column
import ReceiptNotes.Text.Numeral

/-! # Hex dumps

Bytes in rows of sixteen: the offset of the row, the bytes in hexadecimal, and the
bytes as characters where they are visible ones.
-/

namespace ReceiptNotes.HexDump

def rowSize : Nat := 16

def byteText (byte : UInt8) : Text :=
  Text.zeroPadded 2 (Text.upperHexadecimal byte.toNat)

/-- A byte as a character: itself if it is a space or a visible character of ASCII,
else a point. -/
def visible (byte : UInt8) : Char :=
  if 0x20 ≤ byte ∧ byte ≤ 0x7E then Char.ofNat byte.toNat else '.'

/-- The row of some bytes, the first of which has the given offset. -/
def row (offset : Nat) (bytes : Bytes) : Text :=
  Text.zeroPadded 8 (Text.upperHexadecimal offset) ++ "  ".toList ++
    Text.padEnd 47 ' ' ([' '].intercalate (bytes.map byteText)) ++ "  ".toList ++
    bytes.map visible

/-- The rows of some bytes, the first of which has the given offset. -/
def rowsFrom (offset : Nat) (bytes : Bytes) : List Text :=
  match bytes with
  | [] => []
  | byte :: more =>
      row offset (byte :: more.take (rowSize - 1)) ::
        rowsFrom (offset + rowSize) (more.drop (rowSize - 1))
termination_by bytes.length
decreasing_by
  simp only [List.length_drop, List.length_cons]
  omega

def rows (bytes : Bytes) : List Text :=
  rowsFrom 0 bytes

end ReceiptNotes.HexDump
