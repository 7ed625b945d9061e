import ReceiptNotes.Session.Dialogue
import ReceiptNotes.Session.Input
import ReceiptNotes.Session.Link

/-! # Sessions

A session is a printer with a link to it and a clock. It can print single notes, or
hold dialogues on whole inputs. The clock is a sequence of moments, one for each
time it is read, over all dialogues of the session.
-/

namespace ReceiptNotes

/-- A printer, the link to it, and a clock. -/
structure Session where
  printer : Printer
  link : Link
  /-- The moment that the clock shows when it is read, given the number of earlier
  readings. -/
  clock : Nat → Timestamp
  clockReadings : Nat

inductive StopReason where
  | inputClosed
  | cancelled
  deriving DecidableEq, Repr

structure Summary where
  printed : Nat
  failed : Nat
  reason : StopReason
  deriving DecidableEq, Repr

/-- The outcome of a dialogue when there is no more input. -/
def Dialogue.outcome (dialogue : Dialogue) (ending : Ending) : Except Fault Summary :=
  match dialogue.stage, ending with
  | .over fault, _ => .error fault
  | _, .closed => .ok ⟨dialogue.printed, dialogue.failed, .inputClosed⟩
  | _, .cancelled => .ok ⟨dialogue.printed, dialogue.failed, .cancelled⟩
  | _, .broken cause => .error (.io cause)

/-- Sends the job that a dialogue wants sent, if it wants one sent. -/
def Dialogue.settle (dialogue : Dialogue) (link : Link) : Dialogue × Link :=
  match dialogue.stage with
  | .sending job =>
      let (answer, link) := link.send job
      (dialogue.acknowledge answer, link)
  | _ => (dialogue, link)

namespace Session

def ofProfile (profile : Profile) (link : Link) (clock : Nat → Timestamp) : Session :=
  ⟨.ofProfile profile, link, clock, 0⟩

/-- Asks whether the printer is there before a session on it is begun, and tells what
comes of it. -/
def connect (profile : Profile) (link : Link) (clock : Nat → Timestamp) :
    Text × Except Fault Session :=
  let greeting := "[printer] Connecting to ".toList ++ link.description ++ "...\n".toList
  let (answer, link) := link.probe
  match answer with
  | none => (greeting ++ "[printer] CONNECTED\n".toList, .ok (ofProfile profile link clock))
  | some fault => (greeting ++ "[printer] NOT CONNECTED\n".toList, .error fault)

/-- Shows a note and sends its job. The result is the size of the job. -/
def print (session : Session) (note : Note) (out : Sink) :
    Except Fault Nat × Session × Sink :=
  let (job?, printer, out) := note.prepare session.printer out
  match job? with
  | none => (.error (.io .outputFull), { session with printer }, out)
  | some job =>
      let (answer, link) := session.link.send job
      (match answer with
        | none => .ok job.length
        | some fault => .error fault,
        { session with printer, link }, out)

/-- One more line of a dialogue that the session holds. -/
def step (clock : Nat → Timestamp) (state : Dialogue × Link) (line : Text) :
    Dialogue × Link :=
  (state.1.hear (clock state.1.clockReadings) line).settle state.2

/-- Holds a dialogue on a whole input. -/
def run (session : Session) (input : Input) (out : Sink) :
    Except Fault Summary × Session × Sink :=
  let opened := Dialogue.start session.printer out session.clockReadings
  let (dialogue, link) := input.lines.foldl (step session.clock) (opened, session.link)
  (dialogue.outcome input.ending,
    { session with
      printer := dialogue.printer
      link
      clockReadings := dialogue.clockReadings },
    dialogue.out)

end Session

end ReceiptNotes
