import ReceiptNotes.Address.Socket
import ReceiptNotes.CommandLine.Help
import ReceiptNotes.HexDump
import ReceiptNotes.Printer.ProfileFile
import ReceiptNotes.Session.Basic
import ReceiptNotes.Text.Split

/-! # Running the program

What the program writes and how it exits, given its arguments, the files around it,
its input and the moment. A fault is reported on the error stream; what has been
written before it stands.
-/

namespace ReceiptNotes.CommandLine

structure Surroundings where
  file : Text → Except FileFault Bytes
  /-- What the reader of profiles says of a text that is none. -/
  complaint : Text → Text
  device : Text → Link
  lookup : Socket.Lookup
  network : Socket → Link
  input : Bytes
  now : Timestamp

/-- How the program exits and what it has written. -/
structure Report where
  exitCode : Nat
  output : Bytes
  errors : Text
  deriving DecidableEq, Repr

namespace Report

def success (output : Bytes) : Report :=
  ⟨0, output, []⟩

def faultLine (fault : Fault) : Text :=
  "Error: ".toList ++ fault.message ++ ['\n']

def failure (output : Bytes) (fault : Fault) : Report :=
  ⟨1, output, faultLine fault⟩

def misuse : Report :=
  ⟨2, [], "usage".toList⟩

end Report

/-- The name of a file without the directories before it and without the last point
and what follows it. A point at the start belongs to the name. -/
def fileStem (path : Text) : Text :=
  match ((path.splitOn '/').filter fun piece => piece ≠ [] ∧ piece ≠ ['.']).getLast? with
  | none | some ['.', '.'] => []
  | some name =>
      match Text.splitLast? '.' name with
      | none | some ([], _) => name
      | some (stem, _) => stem

/-- The profile that the arguments ask for. It must be usable before the number of
columns is replaced, and afterwards. -/
def Layout.load (layout : Layout) (around : Surroundings) : Except Fault Profile := do
  let profile ← match layout.profile with
    | some path => Profile.load around.complaint path (around.file path)
    | none => .ok Profile.default
  let profile := match layout.columns with
    | some columns => { profile with columns }
    | none => profile
  match profile.flaw? with
  | some flaw => .error (.configuration (.flaw flaw))
  | none => .ok profile

/-- The link to a destination. A network address must stand for a printer. -/
def Destination.link (destination : Destination) (around : Surroundings) :
    Except Fault Link :=
  match destination with
  | .memory => .ok (Link.memory false)
  | .network target => (Socket.resolve around.lookup target).map around.network
  | .device path => .ok (around.device path)

/-- The note that a file is shown as: its lines under its name. -/
def noteOfFile (path : Text) (now : Timestamp) (content : Text) : Note :=
  ⟨fileStem path, now, Text.lines content⟩

def jobText (hex : Bool) (job : Bytes) : Text :=
  ['\n'] ++ Text.decimal job.length ++ " bytes\n".toList ++
    if hex then (HexDump.rows job).flatMap (· ++ ['\n']) else []

/-- Shows a file as a note, and its job. -/
def preview (path : Text) (hex : Bool) (layout : Layout) (around : Surroundings) :
    Except Fault Bytes := do
  let profile ← layout.load around
  let bytes ← (around.file path).mapError fun cause => .io (.file cause)
  let some content := Text.ofUtf8? bytes | .error (.io .malformedStream)
  match (noteOfFile path around.now content).prepare (.ofProfile profile) (.ofLimit none) with
  | (some job, _, out) => return (out.write (jobText hex job)).taken
  | (none, _, _) => .error (.io .outputFull)

def summaryText (summary : Summary) : Text :=
  (match summary.reason with
    | .cancelled => ['\n']
    | .inputClosed => []) ++
    "Printed ".toList ++ Text.decimal summary.printed ++ " note(s), ".toList ++
    Text.decimal summary.failed ++ " failed\n".toList

/-- Holds a dialogue on the program's input. -/
def notes (destination : Destination) (layout : Layout) (around : Surroundings) : Report :=
  match layout.load around with
  | .error fault => .failure [] fault
  | .ok profile =>
      match destination.link around with
      | .error fault => .failure [] fault
      | .ok link =>
          match Session.connect profile link (fun _ => around.now) with
          | (greeting, .error fault) => .failure (Text.utf8 greeting) fault
          | (greeting, .ok session) =>
              let input := Input.hear none (Arrival.ofBytes .blocking around.input)
              match session.run input (.write (.ofLimit none) greeting) with
              | (.ok summary, _, out) => .success (out.write (summaryText summary)).taken
              | (.error fault, _, out) => .failure out.taken fault

def run (arguments : List Text) (around : Surroundings) : Report :=
  match invocation arguments with
  | .help topic => .success (Text.utf8 topic.text)
  | .version => .success (Text.utf8 versionText)
  | .misuse => .misuse
  | .notes destination layout => notes destination layout around
  | .preview file hex layout =>
      match preview file hex layout around with
      | .ok output => .success output
      | .error fault => .failure [] fault

end ReceiptNotes.CommandLine
