import ReceiptNotes.Text.Basic

/-! # Numerals

Natural numbers written and read in base ten and sixteen.
-/

namespace ReceiptNotes.Text

/-- A number in base ten, without leading zeros. -/
def decimal (n : Nat) : Text :=
  Nat.toDigits 10 n

/-- A number in base sixteen with lower-case digits, without leading zeros. -/
def hexadecimal (n : Nat) : Text :=
  Nat.toDigits 16 n

/-- `hexadecimal` with upper-case digits. -/
def upperHexadecimal (n : Nat) : Text :=
  (hexadecimal n).map Char.toUpper

/-- At least `width` characters of a numeral, filled with zeros in front. -/
def zeroPadded (width : Nat) (numeral : Text) : Text :=
  numeral.leftpad width '0'

/-- The value of a digit in base ten. -/
def decimalDigit? (c : Char) : Option Nat :=
  if c.isDigit then some (c.toNat - '0'.toNat) else none

/-- The value of a digit in base sixteen, of either case. -/
def hexDigit? (c : Char) : Option Nat :=
  if c.isDigit then some (c.toNat - '0'.toNat)
  else if 'a' ≤ c ∧ c ≤ 'f' then some (c.toNat - 'a'.toNat + 10)
  else if 'A' ≤ c ∧ c ≤ 'F' then some (c.toNat - 'A'.toNat + 10)
  else none

/-- The value of a non-empty row of digits, each read by `digit?`, in some base. -/
def digitsValue? (base : Nat) (digit? : Char → Option Nat) : Text → Option Nat
  | [] => none
  | digits => digits.foldl (fun value c => do return (← value) * base + (← digit? c)) (some 0)

/-- The number that a row of decimal digits stands for; leading zeros are allowed. -/
def decimalValue? (digits : Text) : Option Nat :=
  digitsValue? 10 decimalDigit? digits

def hexValue? (digits : Text) : Option Nat :=
  digitsValue? 16 hexDigit? digits

/-- A number below `bound`, written with an optional plus sign and decimal digits. -/
def unsigned? (bound : Nat) (numeral : Text) : Option Nat :=
  let digits := match numeral with
    | '+' :: rest => rest
    | rest => rest
  (decimalValue? digits).filter (· < bound)

end ReceiptNotes.Text
