import ReceiptNotes.Command.Basic
import ReceiptNotes.Markup.Scan

/-! # Commands of a line of markup

Every token of a line becomes one command. A line that is no markup is printed as
it stands.
-/

namespace ReceiptNotes

/-- The command of a token. A token whose payload does not belong to its kind
becomes the command that does nothing. -/
def Markup.Token.command (token : Markup.Token) : Command :=
  match token.kind, token.payload with
  | .word, .plain text | .whitespace, .plain text => .append text
  | .qr, .plain text => .qrCode text
  | .title, .plain text => .title text
  | .bold, .plain text => .bold text
  | .underline, .plain text => .underline text
  | .centered, .plain text => .centered text
  | .link, .link text url => .link text url
  | .horizontalRule, _ => .rule false
  | .newline, _ | .endOfInput, _ => .newLine
  | _, _ => .noop

def Command.ofLine (line : Text) : List Command :=
  match Markup.lex line with
  | .ok tokens => tokens.map Markup.Token.command
  | .error _ => [.printLine line]

end ReceiptNotes
