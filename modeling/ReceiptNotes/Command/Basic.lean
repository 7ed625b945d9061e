import ReceiptNotes.Printer.Buffer

/-! # Print commands

A print command says what is to stand on the paper, without saying how a printer
is brought to do it. Every command has two renderings: a preview in markup, and
operations of a printer. A command that switches a style on switches it off again
behind its text.
-/

namespace ReceiptNotes

/-- What is to stand on the paper. -/
inductive Command where
  | execute
  | newLine
  | cut
  /-- A line of dashes over the whole width, with or without a line break. -/
  | rule (breakLine : Bool)
  | noop
  | append (data : Text)
  | printLine (data : Text)
  | bold (data : Text)
  | underline (data : Text)
  | title (data : Text)
  | centered (data : Text)
  | leftRight (left right : Text)
  /-- A QR code of `url`, with the link's text and `url` below it. -/
  | link (label url : Text)
  | qrCode (data : Text)
  | code128 (data : Text)
  | code39 (data : Text)
  | pdf417 (data : Text)
  deriving DecidableEq, Repr

namespace Command

open Text (dashes justify)

/-- The markup that a command stands for on a line of `columns` characters. -/
def preview (columns : Nat) : Command → Text
  | execute | cut | noop => []
  | newLine => ['\n']
  | rule breakLine => dashes columns ++ if breakLine then ['\n'] else []
  | append data => data
  | printLine data => data ++ ['\n']
  | bold data => "**".toList ++ data ++ "**".toList
  | underline data => "__".toList ++ data ++ "__".toList
  | title data => "# ".toList ++ data
  | centered data => ":-- ".toList ++ data ++ " --:\n".toList
  | leftRight left right => justify left right columns ++ ['\n']
  | link label url => "[".toList ++ label ++ "](".toList ++ url ++ ")".toList
  | qrCode data =>
      dashes columns ++ "\n||qr:".toList ++ data ++ "||\n".toList ++ data ++ ['\n'] ++
        dashes columns ++ "\n\n".toList
  | code128 data => "||128:".toList ++ data ++ "||\n".toList
  | code39 data => "||39:".toList ++ data ++ "||\n".toList
  | pdf417 data => "||417:".toList ++ data ++ "||\n".toList

def previewAll (columns : Nat) (commands : List Command) : Text :=
  commands.flatMap (preview columns)

/-- The operations that a command stands for on a printer with some profile. -/
def operations (profile : Profile) : Command → List Operation
  | execute | noop => []
  | newLine => [.newline]
  | cut => [.cut]
  | rule breakLine => .text profile.rule :: if breakLine then [.newline] else []
  | append data => [.text data]
  | printLine data => [.text data, .newline]
  | bold data => [.setBold true, .text data, .setBold false]
  | underline data => [.setUnderline true, .text data, .setUnderline false]
  | title data =>
      [TextSize.quad.operation, .text data, .newline, TextSize.normal.operation]
  | centered data => [.setAlign .center, .text data, .newline, .setAlign .left]
  | leftRight left right => [.text (justify left right profile.width), .newline]
  | link label url =>
      [profile.qrCode url, .setBold true, .text label, .newline, .setBold false,
        .text url, .newline]
  | qrCode data =>
      [.text profile.rule, .newline, profile.qrCode data, .text data, .newline,
        .text profile.rule, .newline]
  | code128 data => [profile.barcode .code128 data]
  | code39 data => [profile.barcode .code39 data]
  | pdf417 data => [profile.pdf417 data]

/-- Has a printer finish its program for `execute`, and record the operations of any
other command. -/
def perform (command : Command) (printer : Printer) : Printer :=
  match command with
  | execute => printer.finish
  | command => printer.record (command.operations printer.profile)

def performAll (commands : List Command) (printer : Printer) : Printer :=
  commands.foldl (fun printer command => command.perform printer) printer

end Command

end ReceiptNotes
