import ReceiptNotes.Text.Basic

/-! # Markup tokens

A token is a classified stretch of one line. Its span counts bytes, since that
is what positions in error messages count.
-/

namespace ReceiptNotes.Markup

inductive Kind where
  | word
  | whitespace
  | qr
  | title
  | bold
  | underline
  | horizontalRule
  | link
  | centered
  | newline
  | endOfInput
  deriving DecidableEq, Repr

/-- What a token holds beside its kind. -/
inductive Payload where
  /-- Rules, line breaks and the end of the line hold nothing. -/
  | nothing
  | plain (text : Text)
  | link (text url : Text)
  deriving DecidableEq, Repr

/-- A stretch of a line, its kind and its payload. The span runs from the byte
number `start` up to, but not including, the byte number `stop`. -/
structure Token where
  kind : Kind
  payload : Payload
  start : Nat
  stop : Nat
  deriving DecidableEq, Repr

/-- The plain text a token holds, if it holds one. -/
def Token.text? (token : Token) : Option Text :=
  match token.payload with
  | .plain text => some text
  | _ => none

end ReceiptNotes.Markup
