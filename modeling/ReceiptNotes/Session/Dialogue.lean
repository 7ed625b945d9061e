import ReceiptNotes.Fault
import ReceiptNotes.Note.Basic
import ReceiptNotes.Note.Body
import ReceiptNotes.Session.Sink

/-! # The dialogue with the operator

A dialogue asks for a subject and then for the lines of a body, prints the note as
soon as its body is complete, and asks for the next subject. It is a state that is
moved on from outside: by a line that the operator has typed, or by the answer to a
job that is to be sent. Whatever it tells the operator goes to an output; when that
has overflowed, the dialogue is over.

A job comes into being only after the whole preview of its note has been shown, and
it is taken out of the printer before it is sent, so the printer's buffer is empty
between two notes.
-/

namespace ReceiptNotes

inductive Stage where
  | subject
  | body (subject : Text) (captured : Body)
  | sending (job : Bytes)
  /-- Nothing: the dialogue has been ended by a fault. -/
  | over (fault : Fault)
  deriving DecidableEq, Repr

/-- Shows a note and takes its job. There is no job if the output overflows; the
printer's buffer is empty in either case. -/
def Note.prepare (note : Note) (printer : Printer) (out : Sink) :
    Option Bytes × Printer × Sink :=
  let (printer, out) := Command.render printer.profile.width note.commands printer out
  if out.overflowed then (none, printer.clear, out)
  else
    let (job, printer) := printer.finish.takeJob
    (some job, printer.clear, out)

structure Dialogue where
  printer : Printer
  out : Sink
  /-- How many times the clock has been read. -/
  clockReadings : Nat
  stage : Stage
  printed : Nat
  failed : Nat
  deriving DecidableEq, Repr

namespace Dialogue

def subjectPrompt : Text := "Subject: ".toList

def linePrompt : Text := "  ".toList

/-- A line of a dialogue's own, set in from the margin. -/
def indented (text : Text) : Text :=
  "    ".toList ++ text ++ ['\n']

/-- The subject as it is repeated to the operator, with a stand-in for a missing
one. -/
def shownSubject (subject : Text) : Text :=
  match Text.trim subject with
  | [] => "Task".toList
  | shown => shown

def sentNotice (size : Nat) : Text :=
  "[printer] Sent ".toList ++ Text.decimal size ++ " bytes\n".toList

def failureNotice (fault : Fault) : Text :=
  "[printer] Flush failed: ".toList ++ fault.message ++ ['\n']

/-- Tells the operator something and goes on to a stage, or is over if the output
overflows. -/
def tell (dialogue : Dialogue) (text : Text) (stage : Stage) : Dialogue :=
  let out := dialogue.out.write text
  { dialogue with
    out
    stage := if out.overflowed then .over (.io .outputFull) else stage }

/-- A dialogue that starts with asking for a subject. -/
def start (printer : Printer) (out : Sink) (clockReadings : Nat) : Dialogue :=
  tell ⟨printer, out, clockReadings, .subject, 0, 0⟩ subjectPrompt .subject

def rule (dialogue : Dialogue) : Text :=
  dialogue.printer.profile.rule

/-- Shows a note and has its job sent. -/
def present (dialogue : Dialogue) (note : Note) : Dialogue :=
  let (job?, printer, out) := note.prepare dialogue.printer dialogue.out
  { dialogue with
    printer
    out
    clockReadings := dialogue.clockReadings + 1
    stage :=
      match job? with
      | some job => .sending job
      | none => .over (.io .outputFull) }

/-- The operator has typed a line, and the clock shows `now`. The clock is read only
if the line completes a note. -/
def hear (dialogue : Dialogue) (now : Timestamp) (line : Text) : Dialogue :=
  match dialogue.stage with
  | .subject =>
      dialogue.tell
        (['\n'] ++ indented (shownSubject line) ++ indented dialogue.rule ++ linePrompt)
        (.body line .empty)
  | .body subject captured =>
      let captured := captured.push line
      if captured.isComplete then
        let closed := dialogue.tell (indented dialogue.rule ++ ['\n']) dialogue.stage
        if closed.out.overflowed then closed
        else closed.present ⟨subject, now, captured.finish⟩
      else dialogue.tell linePrompt (.body subject captured)
  | .sending _ | .over _ => dialogue

/-- The job has been answered. A fault in sending is told to the operator, who is
asked for the next subject in either case; only a fault of input or output ends the
dialogue. -/
def acknowledge (dialogue : Dialogue) (answer : Option Fault) : Dialogue :=
  match dialogue.stage, answer with
  | .sending job, none =>
      { dialogue with printed := dialogue.printed + 1 }.tell
        (sentNotice job.length ++ subjectPrompt) .subject
  | .sending _, some (.io cause) => { dialogue with stage := .over (.io cause) }
  | .sending _, some fault =>
      { dialogue with failed := dialogue.failed + 1 }.tell
        (failureNotice fault ++ subjectPrompt) .subject
  | _, _ => dialogue

end Dialogue

end ReceiptNotes
