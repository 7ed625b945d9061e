import ReceiptNotes.Fault

/-! # Links to a printer

A link hands finished jobs over to a printer. How it answers may depend on what is
asked and on how many times it has been asked; a job it takes without a fault has
been delivered.
-/

namespace ReceiptNotes

inductive Request where
  | probe
  | send
  deriving DecidableEq, Repr

/-- A link, the number of times it has been asked, and the jobs it was given. -/
structure Link where
  description : Text
  /-- The fault, if any, with which the link answers a request, given the number of
  requests before it. -/
  answer? : Request → Nat → Option Fault
  requests : Nat := 0
  /-- The jobs handed over, first one first, each with the answer to it. -/
  handedOver : Array (Bytes × Option Fault) := #[]

namespace Link

/-- A printer in memory, which takes every job unless it is switched off. -/
def memory (offline : Bool) : Link where
  description := "memory".toList
  answer? _ _ := if offline then some (.notConnected .offline) else none

/-- A link whose answers are laid down one by one: a fault in its own words, or
success. Behind the last one it always succeeds. -/
def scripted (answers : List (Option Text)) : Link where
  description := "scripted".toList
  answer? _ asked := (answers[asked]?.join).map fun text => .transport (.reported text)

/-- A printer that cannot be reached. -/
def unreachable (description : Text) (fault : TransportFault) : Link where
  description
  answer? request _ :=
    match request with
    | .probe => some (.notConnected (.unreachable fault))
    | .send => some (.transport fault)

/-- A serial device where the file system has something else: nothing, or a file that
is no terminal. -/
def device (path : Text) (found : Except FileFault Bytes) : Link :=
  unreachable path <|
    match found with
    | .error cause => .cannotOpen path cause
    | .ok _ => .cannotConfigure .notTerminal

def probe (link : Link) : Option Fault × Link :=
  (link.answer? .probe link.requests, { link with requests := link.requests + 1 })

def send (link : Link) (job : Bytes) : Option Fault × Link :=
  let answer := link.answer? .send link.requests
  (answer,
    { link with
      requests := link.requests + 1
      handedOver := link.handedOver.push (job, answer) })

/-- The jobs that were taken without a fault, first one first. -/
def delivered (link : Link) : List Bytes :=
  (link.handedOver.toList.filter fun (_, answer) => answer.isNone).map Prod.fst

end Link

end ReceiptNotes
