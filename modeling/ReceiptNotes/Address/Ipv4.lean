import ReceiptNotes.Text.Numeral

/-! # IPv4 addresses

Four bytes. Their text is the four numbers with points between them. A numeric host
may be given more loosely: with fewer numbers, the last of which then fills the
remaining bytes, and with octal and hexadecimal numbers.
-/

namespace ReceiptNotes

/-- An IPv4 address, from its most significant byte on. -/
structure Ipv4 where
  first : UInt8
  second : UInt8
  third : UInt8
  fourth : UInt8
  deriving DecidableEq, Repr

namespace Ipv4

def ofNat (n : Nat) : Ipv4 :=
  ⟨UInt8.ofNat (n / 0x1000000), UInt8.ofNat (n / 0x10000), UInt8.ofNat (n / 0x100),
    UInt8.ofNat n⟩

def toText (address : Ipv4) : Text :=
  Text.decimal address.first.toNat ++ ['.'] ++ Text.decimal address.second.toNat ++ ['.'] ++
    Text.decimal address.third.toNat ++ ['.'] ++ Text.decimal address.fourth.toNat

/-- A number from 0 to 255 in at most three digits, without leading zeros. -/
def byte? (numeral : Text) : Option UInt8 :=
  if numeral.length ≤ 3 ∧ (numeral.length = 1 ∨ numeral.head? ≠ some '0') then
    ((Text.decimalValue? numeral).filter (· < 0x100)).map UInt8.ofNat
  else none

/-- The address that four numbers with points between them stand for. -/
def ofText? (text : Text) : Option Ipv4 :=
  match (text.splitOn '.').map byte? with
  | [some first, some second, some third, some fourth] => some ⟨first, second, third, fourth⟩
  | _ => none

/-- A number in base sixteen behind `0x`, in base eight behind `0`, or else in base
ten. -/
def looseNumber? (numeral : Text) : Option Nat :=
  match numeral with
  | '0' :: 'x' :: digits | '0' :: 'X' :: digits => Text.hexValue? digits
  | '0' :: digits =>
      Text.digitsValue? 8 (fun c => (Text.decimalDigit? c).filter (· < 8)) ('0' :: digits)
  | digits => Text.decimalValue? digits

/-- Some bytes and a last number that fills what they leave of `room` bytes, put
together. -/
def assemble? : (room : Nat) → (numbers : List Nat) → Option Nat
  | room + 1, [last] => if last < Nat.pow 0x100 (room + 1) then some last else none
  | room + 1, n :: numbers =>
      if n < 0x100 then (assemble? room numbers).map (n * Nat.pow 0x100 room + ·) else none
  | _, _ => none

def ofHost? (host : Text) : Option Ipv4 := do
  let numbers ← (host.splitOn '.').mapM looseNumber?
  return ofNat (← assemble? 4 numbers)

end Ipv4

end ReceiptNotes
