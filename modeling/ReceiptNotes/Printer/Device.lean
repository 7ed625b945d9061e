import ReceiptNotes.Command.Basic

/-! # The printer as a device

Whatever is done with a printer is a call on it. A primitive step and a command are
recorded, and only taking a job gives bytes away. How wide a line is may be asked at
any time.
-/

namespace ReceiptNotes

namespace Device

/-- One primitive step of a printer, recorded as it is called for. -/
inductive Primitive where
  | append (line : Text)
  | printLine (line : Text)
  | newLine
  | cut
  | setBold (on : Bool)
  | setUnderline (on : Bool)
  | setAlign (alignment : Alignment)
  | setTextSize (size : TextSize)
  /-- A line of dashes over the whole width. -/
  | drawLine
  | qrCode (data : Text)
  | barcode (symbology : Symbology) (data : Text)
  | pdf417 (data : Text)
  | leftRight (left right : Text)
  deriving DecidableEq, Repr

def Primitive.operations (profile : Profile) : Primitive → List Operation
  | append line => [.text line]
  | printLine line => [.text line, .newline]
  | newLine => [.newline]
  | cut => [.cut]
  | setBold on => [.setBold on]
  | setUnderline on => [.setUnderline on]
  | setAlign alignment => [.setAlign alignment]
  | setTextSize size => [size.operation]
  | drawLine => [.text profile.rule, .newline]
  | qrCode data => [profile.qrCode data]
  | barcode symbology data => [profile.barcode symbology data]
  | pdf417 data => [profile.pdf417 data]
  | leftRight left right => [.text (Text.justify left right profile.width), .newline]

inductive Call where
  /-- Asks how many characters fit on a line. -/
  | width
  | primitive (primitive : Primitive)
  | command (command : Command)
  | execute
  | clear
  | takeJob
  deriving DecidableEq, Repr

inductive Reply where
  | done
  | width (columns : Nat)
  | job (bytes : Bytes)
  deriving DecidableEq, Repr

end Device

namespace Printer

open Device

/-- The reply to a call, and the printer after it. -/
def answer (printer : Printer) : Call → Reply × Printer
  | .width => (.width printer.profile.width, printer)
  | .primitive primitive => (.done, printer.record (primitive.operations printer.profile))
  | .command command => (.done, command.perform printer)
  | .execute => (.done, printer.finish)
  | .clear => (.done, printer.clear)
  | .takeJob =>
      let (bytes, printer) := printer.takeJob
      (.job bytes, printer)

/-- The replies to calls in the order of the calls, and the printer after them. -/
def answerAll (printer : Printer) : List Call → List Reply × Printer
  | [] => ([], printer)
  | call :: later =>
      let (reply, printer) := printer.answer call
      let (replies, printer) := printer.answerAll later
      (reply :: replies, printer)

end Printer

end ReceiptNotes
