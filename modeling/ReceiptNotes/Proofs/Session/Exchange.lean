import ReceiptNotes.Proofs.Session.Segments
import ReceiptNotes.Session.Basic

/-! # Exchanges

An exchange is one finished note of a dialogue with all that belongs to it: the
lines in which it was typed, the moment at which it was finished, and the answer to
its job. What the operator sees of it and what is handed over for it depend on
nothing but the exchange and the printer's profile.
-/

namespace ReceiptNotes

namespace Note

/-- The job that a printer with nothing buffered makes of a note alone. -/
def job (profile : Profile) (note : Note) : Bytes :=
  (Command.performAll (note.commands ++ [.execute]) (.ofProfile profile)).takeJob.1

/-- What is shown of a note before it is printed. -/
def preview (profile : Profile) (note : Note) : Text :=
  Command.previewAll profile.width note.commands

end Note

namespace Link

def record (link : Link) (answered : List (Bytes × Option Fault)) : Link :=
  { link with
    requests := link.requests + answered.length
    handedOver := link.handedOver ++ answered }

variable {link : Link} {first second : List (Bytes × Option Fault)} {job : Bytes}

@[simp]
theorem record_nil : link.record [] = link := by
  simp [record]

@[simp]
theorem answer?_record : (link.record first).answer? = link.answer? := rfl

@[simp]
theorem requests_record : (link.record first).requests = link.requests + first.length := rfl

theorem record_record : (link.record first).record second = link.record (first ++ second) := by
  simp only [record, List.length_append, Nat.add_assoc, Link.mk.injEq, true_and]
  apply Array.toList_inj.mp
  simp

theorem record_inj : link.record first = link.record second ↔ first = second := by
  constructor
  · intro h
    have hlists := congrArg (fun link => link.handedOver.toList) h
    simpa [record] using hlists
  · rintro rfl
    rfl

theorem send_eq :
    link.send job =
      (link.answer? .send link.requests,
        link.record [(job, link.answer? .send link.requests)]) := by
  simp only [send, record, Prod.mk.injEq, Link.mk.injEq, List.length_singleton, true_and]
  apply Array.toList_inj.mp
  simp

theorem delivered_record :
    (link.record first).delivered =
      link.delivered ++ (first.filter fun (_, answer) => answer.isNone).map Prod.fst := by
  simp [record, delivered]

end Link

namespace Dialogue

/-- The repetition of a subject between the margin and a rule. -/
def greeting (profile : Profile) (subject : Text) : Text :=
  ['\n'] ++ indented (shownSubject subject) ++ indented profile.rule

/-- The prompts for some lines of a body. -/
def linePrompts (count : Nat) : Text :=
  (List.replicate count linePrompt).flatten

theorem linePrompts_zero : linePrompts 0 = [] := rfl

theorem linePrompts_succ (count : Nat) :
    linePrompts (count + 1) = linePrompt ++ linePrompts count := rfl

end Dialogue

open Dialogue (subjectPrompt greeting linePrompts indented sentNotice failureNotice)

/-- What the operator is shown while a draft is typed. -/
def Draft.opening (profile : Profile) (draft : Draft) : Text :=
  subjectPrompt ++ greeting profile draft.subject ++ linePrompts draft.body.length ++
    indented profile.rule ++ ['\n']

/-- What the operator is shown while lines are typed that finish no note. -/
def Dialogue.unfinished (profile : Profile) : List Text → Text
  | [] => subjectPrompt
  | subject :: captured =>
      subjectPrompt ++ greeting profile subject ++ linePrompts (captured.length + 1)

/-- A finished note of a dialogue. -/
structure Exchange where
  draft : Draft
  moment : Timestamp
  /-- The fault, if any, with which its job was answered. -/
  answer : Option Fault

namespace Exchange

/-- The exchange on a draft that is finished at the next reading of the clock and whose
job is the next request to the link. -/
def ofDraft (clock : Nat → Timestamp) (readings : Nat) (link : Link) (draft : Draft) :
    Exchange :=
  ⟨draft, clock readings, link.answer? .send link.requests⟩

/-- The exchanges on some drafts. Each of them takes one reading of the clock and one
request to the link, whatever the answer. -/
def ofDrafts (clock : Nat → Timestamp) (readings : Nat) (link : Link)
    (drafts : List Draft) : List Exchange :=
  drafts.mapIdx fun i draft =>
    ⟨draft, clock (readings + i), link.answer? .send (link.requests + i)⟩

def ofLines (session : Session) (lines : List Text) : List Exchange :=
  ofDrafts session.clock session.clockReadings session.link (Segmentation.ofLines lines).drafts

def note (exchange : Exchange) : Note :=
  exchange.draft.note exchange.moment

def job (profile : Profile) (exchange : Exchange) : Bytes :=
  exchange.note.job profile

def entry (profile : Profile) (exchange : Exchange) : Bytes × Option Fault :=
  (exchange.job profile, exchange.answer)

/-- What the operator is shown up to the sending of the job. -/
def shown (profile : Profile) (exchange : Exchange) : Text :=
  exchange.draft.opening profile ++ exchange.note.preview profile

/-- How the operator is told of the answer. -/
def notice (profile : Profile) (exchange : Exchange) : Text :=
  match exchange.answer with
  | none => sentNotice (exchange.job profile).length
  | some fault => failureNotice fault

/-- All that the operator is shown of an exchange. -/
def transcript (profile : Profile) (exchange : Exchange) : Text :=
  exchange.shown profile ++ exchange.notice profile

def delivered (exchange : Exchange) : Bool :=
  exchange.answer.isNone

/-- The job was answered with a fault of input or output, which ends the dialogue. -/
def breaksOff (exchange : Exchange) : Bool :=
  match exchange.answer with
  | some (.io _) => true
  | _ => false

theorem breaksOff_iff {exchange : Exchange} :
    exchange.breaksOff = true ↔ ∃ cause, exchange.answer = some (.io cause) := by
  unfold breaksOff
  split
  next cause hanswer => simp [hanswer]
  next hother =>
      simp only [Bool.false_eq_true, false_iff, not_exists]
      exact hother

variable {clock : Nat → Timestamp} {readings : Nat} {link : Link}

/-- Where no answer is a fault of input or output, no exchange breaks off. -/
theorem breaksOff_of_mem_ofDrafts {drafts : List Draft} {exchange : Exchange}
    (hanswers : ∀ asked cause, link.answer? .send asked ≠ some (.io cause))
    (h : exchange ∈ ofDrafts clock readings link drafts) : exchange.breaksOff = false := by
  obtain ⟨i, hi, rfl⟩ := List.mem_mapIdx.mp h
  rw [← Bool.not_eq_true, breaksOff_iff]
  rintro ⟨cause, hcause⟩
  exact hanswers _ cause hcause

@[simp]
theorem ofDrafts_nil : ofDrafts clock readings link [] = [] := rfl

theorem ofDrafts_cons (draft : Draft) (drafts : List Draft) (answered : Bytes × Option Fault) :
    ofDrafts clock readings link (draft :: drafts) =
      ofDraft clock readings link draft ::
        ofDrafts clock (readings + 1) (link.record [answered]) drafts := by
  simp only [ofDrafts, ofDraft, List.mapIdx_cons, Link.answer?_record, Link.requests_record,
    List.length_singleton, Nat.add_zero]
  congr 2
  funext i draft
  rw [Nat.add_right_comm readings, Nat.add_assoc, Nat.add_right_comm link.requests,
    Nat.add_assoc]

/-- The jobs that a link has kept as delivered are those of the delivered exchanges. -/
theorem map_filter_entry (profile : Profile) (exchanges : List Exchange) :
    ((exchanges.map (entry profile)).filter fun (_, answer) => answer.isNone).map Prod.fst =
      (exchanges.filter delivered).map (job profile) := by
  rw [List.filter_map, List.map_map]
  rfl

end Exchange

end ReceiptNotes
