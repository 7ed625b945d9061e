import ReceiptNotes.Fault
import ReceiptNotes.Text.Lines

/-! # The operator's input

What a session hears is a list of lines and the way the input ends: closed, broken
off by a fault, or cut short because the operator cancelled. Cancelling is noticed
when a prompt looks for it, which it does once before it takes a line, and once
more each time it has to go on waiting for the line.
-/

namespace ReceiptNotes

/-- What arrives on an input. -/
inductive Arrival where
  /-- A line that has to be waited for a number of times. -/
  | line (text : Text) (waits : Nat)
  | broken (cause : IoFault)
  deriving DecidableEq, Repr

inductive Ending where
  | closed
  | cancelled
  | broken (cause : IoFault)
  deriving DecidableEq, Repr

structure Input where
  lines : List Text
  ending : Ending
  deriving DecidableEq, Repr

namespace Input

def ofEnding (ending : Ending) : Input :=
  ⟨[], ending⟩

def cons (line : Text) (input : Input) : Input :=
  { input with lines := line :: input.lines }

/-- What is heard of some arrivals by an operator who cancels after `patience`
looks for it, or never. -/
def hear : (patience : Option Nat) → List Arrival → Input
  | some 0, _ => ofEnding .cancelled
  | _, [] => ofEnding .closed
  | _, .broken cause :: _ => ofEnding (.broken cause)
  | none, .line text _ :: later => (hear none later).cons text
  | some patience, .line text waits :: later =>
      if patience < waits + 1 then ofEnding .cancelled
      else (hear (some (patience - (waits + 1))) later).cons text

end Input

/-- How precisely a source of lines reports bytes that are not UTF-8. -/
inductive Source where
  /-- It says where in the line the fault is. -/
  | stream
  /-- It only says that there is a fault. -/
  | blocking
  deriving DecidableEq, Repr

/-- The report of a source on a fault in a line. -/
def Source.report : Source → Text.Utf8.Fault → IoFault
  | .stream, fault => .malformedLine fault
  | .blocking, _ => .malformedStream

namespace Arrival

/-- The lines that a source makes of stretches of bytes, each with its line break.
The first stretch that is not UTF-8 is the last one that is looked at. -/
def ofPieces (source : Source) : List Bytes → List Arrival
  | [] => []
  | piece :: pieces =>
      match Text.Utf8.decode piece with
      | .ok text => .line (Lines.chomp '\n' '\r' text) 0 :: ofPieces source pieces
      | .error fault => [.broken (source.report fault)]

/-- The lines that a source makes of some bytes. -/
def ofBytes (source : Source) (bytes : Bytes) : List Arrival :=
  ofPieces source (Bytes.pieces bytes)

end Arrival

end ReceiptNotes
