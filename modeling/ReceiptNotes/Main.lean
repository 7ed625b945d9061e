import ReceiptNotes.CommandLine.Run
import Std.Time

/-! # The program

Reads the arguments, the files they name, the clock and the standard input, and
writes what the library says. Only the dialogue with the operator needs more than
one exchange: it is moved on line by line, so every prompt is seen before its answer
is typed.
-/

namespace ReceiptNotes.Outer

def fileFault : IO.Error → FileFault
  | .noFileOrDirectory .. => .missing
  | .permissionDenied .. => .denied
  | .inappropriateType _ 21 _ => .isDirectory
  | .inappropriateType .. => .notDirectory
  | error => .reported error.toString.toList

def readFile (path : Text) : IO (Except FileFault Bytes) := do
  try
    let content ← IO.FS.readBinFile (String.ofList path)
    return .ok content.toList
  catch error => return .error (fileFault error)

def readClock : IO Timestamp := do
  let now ← Std.Time.PlainDateTime.now
  return (Timestamp.ofParts? now.year now.month.val.toNat now.day.val.toNat
    now.hour.val.toNat now.minute.val.toNat now.second.val.toNat).getD default

/-- Writes bytes and has them shown at once. -/
def put (stream : IO.FS.Stream) (bytes : Bytes) : IO Unit := do
  stream.write ⟨bytes.toArray⟩
  stream.flush

/-- Hands bytes to a serial device; without any, only sees whether it is there. -/
def writeDevice (path : Text) (bytes : Bytes) : IO (Option TransportFault) := do
  try
    let handle ← IO.FS.Handle.mk (String.ofList path) .readWrite
    if !(← handle.isTty) then return some (.cannotConfigure .notTerminal)
    handle.write ⟨bytes.toArray⟩
    handle.flush
    return none
  catch error => return some (.cannotOpen path (fileFault error))

/-- How jobs reach a destination. Network printers cannot be reached from here. -/
def transport (destination : CommandLine.Destination) (bytes : Bytes) :
    IO (Option TransportFault) :=
  match destination with
  | .memory => return none
  | .network target => return some (.refused target)
  | .device path => writeDevice path bytes

/-- Moves a dialogue on until it is over or the input ends. -/
partial def converse (destination : CommandLine.Destination) (dialogue : Dialogue) :
    IO (Except Fault Summary) := do
  put (← IO.getStdout) dialogue.out.taken
  let dialogue := { dialogue with out := .ofLimit none }
  match dialogue.stage with
  | .over fault => return .error fault
  | .sending job =>
      let fault? ← transport destination job
      converse destination (dialogue.acknowledge (fault?.map Fault.transport))
  | .subject | .body .. =>
      let line? ← try some <$> (← IO.getStdin).getLine catch _ => pure none
      match line? with
      | none => return dialogue.outcome (.broken .malformedStream)
      | some "" => return dialogue.outcome .closed
      | some line =>
          converse destination
            (dialogue.hear (← readClock) (Lines.chomp '\n' '\r' line.toList))

def fail (fault : Fault) : IO UInt32 := do
  put (← IO.getStderr) (Text.utf8 (CommandLine.Report.faultLine fault))
  return 1

def notes (destination : CommandLine.Destination) (profile : Profile) (link : Link) :
    IO UInt32 := do
  let fault? ← transport destination []
  let link := { link with answer? := fun _ _ => fault?.map (.notConnected <| .unreachable ·) }
  let now ← readClock
  match Session.connect profile link fun _ => now with
  | (greeting, .error fault) =>
      put (← IO.getStdout) (Text.utf8 greeting)
      fail fault
  | (greeting, .ok session) =>
      put (← IO.getStdout) (Text.utf8 greeting)
      match ← converse destination (.start session.printer (.ofLimit none) 0) with
      | .error fault => fail fault
      | .ok summary =>
          put (← IO.getStdout) (Text.utf8 (CommandLine.summaryText summary))
          return 0

def run (arguments : List Text) : IO UInt32 := do
  let invocation := CommandLine.invocation arguments
  let files ← invocation.files.mapM fun path => return (path, ← readFile path)
  let around : CommandLine.Surroundings := {
    file := fun path => (files.lookup path).getD (.error .missing)
    complaint := fun _ => "not a profile".toList
    device := fun path => Link.device path (.error .missing)
    lookup := .offline
    network := fun socket => Link.unreachable socket.toText (.refused socket.toText)
    input := []
    now := ← readClock }
  match invocation with
  | .notes destination layout =>
      match layout.load around, destination.link around with
      | .error fault, _ | .ok _, .error fault => fail fault
      | .ok profile, .ok link => notes destination profile link
  | _ =>
      let report := CommandLine.run arguments around
      put (← IO.getStdout) report.output
      put (← IO.getStderr) (Text.utf8 report.errors)
      return UInt32.ofNat report.exitCode

end ReceiptNotes.Outer

def main (arguments : List String) : IO UInt32 :=
  ReceiptNotes.Outer.run (arguments.map String.toList)
