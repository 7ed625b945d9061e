import ReceiptNotes.Text.Basic

/-! # UTF-8

Writing a text as bytes and reading bytes back as a text. Reading goes byte by
byte: at every point the reader stands between two characters, or inside one
whose remaining bytes and their bounds are known. It stops at the first byte
that no character can hold there, and then says where the broken character
starts and how many of its bytes had been read, which is how much of the input
is known to be wrong.
-/

namespace ReceiptNotes.Text

def utf8 (text : Text) : Bytes :=
  text.flatMap String.utf8EncodeChar

@[simp]
theorem utf8_nil : utf8 [] = [] := rfl

@[simp]
theorem utf8_cons (c : Char) (text : Text) :
    utf8 (c :: text) = String.utf8EncodeChar c ++ utf8 text := rfl

@[simp]
theorem utf8_append (first second : Text) : utf8 (first ++ second) = utf8 first ++ utf8 second := by
  simp [utf8]

theorem length_utf8 (text : Text) : (utf8 text).length = byteLength text := by
  induction text with
  | nil => rfl
  | cons c text ih => simp [ih, String.length_utf8EncodeChar]

namespace Utf8

/-- Why some bytes are no UTF-8. -/
inductive Fault where
  /-- `length` bytes from `index` on start no character. -/
  | malformed (length index : Nat)
  /-- The bytes end inside the character that starts at `index`. -/
  | truncated (index : Nat)
  deriving DecidableEq, Repr

/-- The part of a character that has been read and what may come next. -/
structure Opened where
  seen : Nat
  owed : Nat
  /-- The least value the next byte may have. -/
  low : Nat
  /-- The greatest value the next byte may have. -/
  high : Nat
  bits : Nat
  deriving DecidableEq, Repr

/-- What the first byte of a character of several bytes announces: how many more
bytes there are and the bounds on the second one, which rule out overlong forms,
surrogates and values above the last code point. -/
def opened? (byte : UInt8) : Option Opened :=
  let b := byte.toNat
  if b < 0xC2 then none
  else if b < 0xE0 then some ⟨1, 1, 0x80, 0xBF, b % 32⟩
  else if b == 0xE0 then some ⟨1, 2, 0xA0, 0xBF, 0⟩
  else if b == 0xED then some ⟨1, 2, 0x80, 0x9F, 13⟩
  else if b < 0xF0 then some ⟨1, 2, 0x80, 0xBF, b % 16⟩
  else if b == 0xF0 then some ⟨1, 3, 0x90, 0xBF, 0⟩
  else if b < 0xF4 then some ⟨1, 3, 0x80, 0xBF, b % 8⟩
  else if b == 0xF4 then some ⟨1, 3, 0x80, 0x8F, 4⟩
  else none

/-- How far the reading of some bytes has come. -/
inductive Reading where
  /-- The next byte, number `index`, starts a character. The characters read are
  held last one first. -/
  | between (index : Nat) (read : Text)
  /-- The character that starts at `index` has been read in part. -/
  | inside (index : Nat) (read : Text) (part : Opened)
  | failed (fault : Fault)
  deriving DecidableEq, Repr

def Reading.step : Reading → UInt8 → Reading
  | .between index read, byte =>
      if byte.toNat < 0x80 then .between (index + 1) (Char.ofNat byte.toNat :: read)
      else match opened? byte with
        | some part => .inside index read part
        | none => .failed (.malformed 1 index)
  | .inside index read part, byte =>
      if part.low ≤ byte.toNat ∧ byte.toNat ≤ part.high then
        let bits := part.bits * 64 + byte.toNat % 64
        if part.owed ≤ 1 then .between (index + part.seen + 1) (Char.ofNat bits :: read)
        else .inside index read ⟨part.seen + 1, part.owed - 1, 0x80, 0xBF, bits⟩
      else .failed (.malformed part.seen index)
  | .failed fault, _ => .failed fault

def Reading.finish : Reading → Except Fault Text
  | .between _ read => .ok read.reverse
  | .inside index _ _ => .error (.truncated index)
  | .failed fault => .error fault

def decode (bytes : Bytes) : Except Fault Text :=
  (bytes.foldl Reading.step (.between 0 [])).finish

end Utf8

def ofUtf8? (bytes : Bytes) : Option Text :=
  (Utf8.decode bytes).toOption

end ReceiptNotes.Text
