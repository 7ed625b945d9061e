import ReceiptNotes.Command.Basic
import ReceiptNotes.Text.Utf8

/-! # Output with limited room

An output takes bytes up to a limit. What goes beyond the limit is lost, and from
then on the output has overflowed; writing nothing never makes it overflow. A
list of commands is shown on an output and performed by a printer in step: a
command is performed only after its whole preview has been taken.
-/

namespace ReceiptNotes

/-- An output and all that has been offered to it. -/
structure Sink where
  /-- How many bytes it takes in all; no limit if absent. -/
  limit : Option Nat
  offered : Array UInt8
  deriving DecidableEq, Repr

namespace Sink

def ofLimit (limit : Option Nat) : Sink :=
  ⟨limit, #[]⟩

def write (sink : Sink) (text : Text) : Sink :=
  { sink with offered := sink.offered ++ Text.utf8 text }

/-- More has been offered than fits. -/
def overflowed (sink : Sink) : Bool :=
  match sink.limit with
  | none => false
  | some limit => limit < sink.offered.size

def taken (sink : Sink) : Bytes :=
  match sink.limit with
  | none => sink.offered.toList
  | some limit => sink.offered.toList.take limit

end Sink

/-- Shows commands and has them performed, until the output overflows. -/
def Command.render (columns : Nat) : List Command → Printer → Sink → Printer × Sink
  | [], printer, out => (printer, out)
  | command :: commands, printer, out =>
      let out := out.write (command.preview columns)
      if out.overflowed then (printer, out)
      else render columns commands (command.perform printer) out

end ReceiptNotes
