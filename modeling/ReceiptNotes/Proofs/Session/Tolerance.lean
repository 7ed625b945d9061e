import ReceiptNotes.Proofs.Session.Refinement
import ReceiptNotes.Proofs.Text.Utf8

/-! # A refused job next to the same job taken

What a run comes to behind a note does not depend on the answer to the note's job, as long as
the run goes on: the later notes, their moments, their jobs and all that is told of them are
the same (`Remainder`). A job that is answered with a fault costs the run no more than the
note that it was made of, unless the fault is one of input or output. Such an answer is taken
for a fault of the run's own input or output and ends it
(`Session.failed_send_tolerated_iff`).
-/

namespace ReceiptNotes

open Dialogue (asking subjectPrompt unfinished)

/-- The same link, if it takes the job of some request without a fault. -/
def Link.granting (link : Link) (request : Nat) : Link :=
  { link with
    answer? := fun kind asked =>
      if kind = .send ∧ asked = request then none else link.answer? kind asked }

/-- The same session, if the job of its note at some position is taken without a fault. -/
def Session.granting (session : Session) (position : Nat) : Session :=
  { session with link := session.link.granting (session.link.requests + position) }

namespace Exchange

/-- The same exchange, if the job is taken without a fault. -/
def granted (exchange : Exchange) : Exchange :=
  { exchange with answer := none }

variable {profile : Profile} {session : Session} {lines : List Text}
  {earlier later : List Exchange} {exchange : Exchange}

/-- No other exchange changes with the answer to one of them. -/
theorem ofLines_granting (h : ofLines session lines = earlier ++ exchange :: later) :
    ofLines (session.granting earlier.length) lines = earlier ++ exchange.granted :: later := by
  have hat : ∀ i, (ofLines (session.granting earlier.length) lines)[i]? =
      (ofLines session lines)[i]?.map fun exchange =>
        if i = earlier.length then exchange.granted else exchange := by
    intro i
    simp only [ofLines, ofDrafts, List.getElem?_mapIdx, Option.map_map]
    congr 1
    funext draft
    by_cases hi : i = earlier.length
    · simp [Session.granting, Link.granting, granted, hi]
    · simp [Session.granting, Link.granting, hi]
  apply List.ext_getElem?
  intro i
  rw [hat, h]
  rcases lt_trichotomy i earlier.length with hbefore | rfl | hbehind
  · simp [List.getElem?_append_left hbefore, hbefore.ne]
  · simp
  · obtain ⟨k, hk⟩ : ∃ k, i - earlier.length = k + 1 := ⟨i - earlier.length - 1, by omega⟩
    simp [List.getElem?_append_right hbehind.le, hk, hbehind.ne']

theorem prefix_flatMap_transcript {behind : Text} (h : subjectPrompt <+: behind)
    (exchanges : List Exchange) :
    subjectPrompt <+: exchanges.flatMap (transcript profile) ++ behind := by
  cases exchanges with
  | nil => exact h
  | cons exchange exchanges =>
      simp only [List.flatMap_cons, transcript, shown, Draft.opening, List.append_assoc]
      exact List.prefix_append _ _

end Exchange

namespace Dialogue

/-- A dialogue whose output has no limit hears lines up to the note whose job is answered with
a fault of input or output. -/
theorem foldl_step_broken_lines (profile : Profile) {out : Sink} {link : Link}
    (clock : Nat → Timestamp) (readings printed failed : Nat) (hlimit : out.limit = none)
    {lines : List Text} {earlier later : List Exchange} {exchange : Exchange} {cause : IoFault}
    (hexchanges : Exchange.ofDrafts clock readings link (Segmentation.ofLines lines).drafts =
      earlier ++ exchange :: later)
    (hearlier : ∀ exchange ∈ earlier, exchange.breaksOff = false)
    (hcause : exchange.answer = some (.io cause)) :
    ∃ printedThen failedThen,
      lines.foldl (Session.step clock) (asking profile out readings printed failed, link) =
        (⟨.ofProfile profile,
          out.write (earlier.flatMap (Exchange.transcript profile) ++ exchange.shown profile),
          readings + (earlier ++ [exchange]).length, .over (.io cause), printedThen, failedThen⟩,
          link.record ((earlier ++ [exchange]).map (Exchange.entry profile))) := by
  induction lines using Segmentation.induction
    generalizing out readings printed failed link earlier with
  | nil =>
      rw [Segmentation.ofLines] at hexchanges
      simp at hexchanges
  | unfinished subject lines hopen =>
      rw [Segmentation.ofLines_of_unfinished hopen] at hexchanges
      simp at hexchanges
  | finished subject body behind hfinished ih =>
      generalize hfirst : Exchange.ofDraft clock readings link ⟨subject, body⟩ = first
      have hroom : (out.write (first.shown profile)).overflowed = false :=
        Sink.overflowed_of_limit_none hlimit
      have hlines : subject :: (body ++ behind) = Draft.lines ⟨subject, body⟩ ++ behind := rfl
      rw [Segmentation.ofLines_of_finished hfinished,
        Exchange.ofDrafts_cons _ _ (first.entry profile), hfirst] at hexchanges
      rw [hlines, List.foldl_append]
      cases earlier with
      | nil =>
          obtain ⟨rfl, -⟩ := List.cons.inj hexchanges
          refine ⟨printed, failed, ?_⟩
          rw [foldl_step_io printed failed hfinished hfirst hroom hcause, foldl_step_over rfl]
          rfl
      | cons next earlier =>
          obtain ⟨rfl, hlater⟩ := List.cons.inj hexchanges
          obtain ⟨hregular, hearlier⟩ := List.forall_mem_cons.mp hearlier
          rw [foldl_step_regular printed failed hfinished hfirst hroom hregular]
          obtain ⟨printedThen, failedThen, hfold⟩ :=
            @ih (out.write (first.transcript profile)) (link.record [first.entry profile])
              (readings + 1) (printed + if first.delivered then 1 else 0)
              (failed + if !first.delivered then 1 else 0) hlimit earlier hlater hearlier
          refine ⟨printedThen, failedThen, ?_⟩
          rw [hfold]
          simp only [Sink.write_write, Link.record_record, List.flatMap_cons, List.append_assoc,
            List.cons_append, List.nil_append, List.map_cons, List.length_cons, Prod.mk.injEq,
            Dialogue.mk.injEq, true_and, and_true]
          omega

end Dialogue

namespace Session

/-- The session when some exchanges more have taken place. -/
def past (session : Session) (profile : Profile) (exchanges : List Exchange) : Session :=
  { session with
    link := session.link.record (exchanges.map (Exchange.entry profile))
    clockReadings := session.clockReadings + exchanges.length }

variable {profile : Profile} {session : Session} {input : Input}
  {earlier later : List Exchange} {exchange : Exchange}

/-- Without an answer that breaks it off, a run goes on to the end of its input. -/
theorem run_of_regular (hprinter : session.printer = .ofProfile profile)
    (hregular : ∀ exchange ∈ Exchange.ofLines session input.lines, exchange.breaksOff = false) :
    let exchanges := Exchange.ofLines session input.lines
    session.run input (.ofLimit none) =
      (input.ending.outcome (exchanges.countP (·.delivered)) (exchanges.countP (!·.delivered)),
        session.past profile exchanges,
        (Sink.ofLimit none).write (exchanges.flatMap (Exchange.transcript profile) ++
          unfinished profile (Segmentation.ofLines input.lines).unfinished)) := by
  intro exchanges
  obtain ⟨stage, hstage, hfold⟩ := @Dialogue.foldl_step_regular_lines profile (.ofLimit none)
    session.link session.clock session.clockReadings 0 0 rfl input.lines exchanges rfl hregular
  rw [← start_eq_asking hprinter] at hfold
  rw [run_of_foldl session input _ hfold, Dialogue.outcome_of_not_over hstage, Nat.zero_add,
    Nat.zero_add, past, hprinter]

/-- An answer with a fault of input or output ends a run before the note is said to have
failed, and no later note is heard. -/
theorem run_of_io {cause : IoFault} (hprinter : session.printer = .ofProfile profile)
    (hexchanges : Exchange.ofLines session input.lines = earlier ++ exchange :: later)
    (hearlier : ∀ exchange ∈ earlier, exchange.breaksOff = false)
    (hcause : exchange.answer = some (.io cause)) :
    session.run input (.ofLimit none) =
      (.error (.io cause), session.past profile (earlier ++ [exchange]),
        (Sink.ofLimit none).write
          (earlier.flatMap (Exchange.transcript profile) ++ exchange.shown profile)) := by
  obtain ⟨printed, failed, hfold⟩ := @Dialogue.foldl_step_broken_lines profile (.ofLimit none)
    session.link session.clock session.clockReadings 0 0 rfl input.lines earlier later exchange
    cause hexchanges hearlier hcause
  rw [← start_eq_asking hprinter] at hfold
  rw [run_of_foldl session input _ hfold, past, hprinter]
  rfl

end Session

/-- The same summary with one exchange more. -/
def Summary.count (summary : Summary) (exchange : Exchange) : Summary :=
  if exchange.delivered then { summary with printed := summary.printed + 1 }
  else { summary with failed := summary.failed + 1 }

/-- What a run comes to behind a note. -/
structure Remainder where
  /-- The later notes whose jobs are handed over. -/
  sent : List Exchange
  /-- What is told behind the notice on the note. -/
  told : Text
  /-- The outcome of the run as far as the other notes are concerned. -/
  others : Except Fault Summary

namespace Remainder

/-- A run with this left of it behind a note: the note is told of and counted by its answer. -/
def run (rest : Remainder) (profile : Profile) (session : Session) (earlier : List Exchange)
    (exchange : Exchange) : Except Fault Summary × Session × Sink :=
  (rest.others.map fun summary => summary.count exchange,
    session.past profile (earlier ++ exchange :: rest.sent),
    (Sink.ofLimit none).write (earlier.flatMap (Exchange.transcript profile) ++
      exchange.shown profile ++ exchange.notice profile ++ rest.told))

/-- What is left of a run behind a note comes of the later notes alone. -/
structure Follows (rest : Remainder) (profile : Profile) (input : Input)
    (earlier later : List Exchange) : Prop where
  /-- The run goes on with the next subject. -/
  asks : subjectPrompt <+: rest.told
  /-- The notes are printed in their order. -/
  inOrder : rest.sent <+: later
  /-- All of them are printed, and the run ends with its input, unless a later answer is a
  fault of input or output. -/
  whole : (∀ exchange ∈ later, exchange.breaksOff = false) →
    rest = ⟨later,
      later.flatMap (Exchange.transcript profile) ++
        unfinished profile (Segmentation.ofLines input.lines).unfinished,
      input.ending.outcome ((earlier ++ later).countP (·.delivered))
        ((earlier ++ later).countP (!·.delivered))⟩

end Remainder

theorem Ending.outcome_count (ending : Ending) (earlier later : List Exchange)
    (exchange : Exchange) :
    ending.outcome ((earlier ++ exchange :: later).countP (·.delivered))
        ((earlier ++ exchange :: later).countP (!·.delivered)) =
      (ending.outcome ((earlier ++ later).countP (·.delivered))
        ((earlier ++ later).countP (!·.delivered))).map fun summary =>
          summary.count exchange := by
  cases ending with
  | broken cause => rfl
  | closed | cancelled =>
      cases hdelivered : exchange.delivered <;>
        simp [outcome, Summary.count, Except.map, hdelivered, Nat.add_assoc]

namespace Session

variable {profile : Profile} {session : Session} {input : Input}
  {earlier later : List Exchange} {exchange : Exchange}

/-- What is left of a run behind a note is the same for all sessions on which the other notes
have the same exchanges. -/
theorem exists_remainder (profile : Profile) (input : Input) (later : List Exchange)
    (hearlier : ∀ exchange ∈ earlier, exchange.breaksOff = false) :
    ∃ rest : Remainder, rest.Follows profile input earlier later ∧
      ∀ (session : Session) (exchange : Exchange), session.printer = .ofProfile profile →
        Exchange.ofLines session input.lines = earlier ++ exchange :: later →
        exchange.breaksOff = false →
        session.run input (.ofLimit none) = rest.run profile session earlier exchange := by
  cases hbreak : later.find? (·.breaksOff) with
  | none =>
      have hlater : ∀ exchange ∈ later, exchange.breaksOff = false := by
        simpa using List.find?_eq_none.mp hbreak
      refine ⟨_, ⟨Exchange.prefix_flatMap_transcript ?_ later, List.prefix_rfl, fun _ => rfl⟩, ?_⟩
      · cases (Segmentation.ofLines input.lines).unfinished with
        | nil => exact List.prefix_rfl
        | cons subject captured =>
            rw [unfinished, List.append_assoc]
            exact List.prefix_append _ _
      · intro session exchange hprinter hexchanges hregular
        have hall : ∀ exchange ∈ Exchange.ofLines session input.lines,
            exchange.breaksOff = false := by
          rw [hexchanges, List.forall_mem_append, List.forall_mem_cons]
          exact ⟨hearlier, hregular, hlater⟩
        rw [run_of_regular hprinter hall, hexchanges, Ending.outcome_count, Remainder.run]
        simp [Exchange.transcript]
  | some breaking =>
      obtain ⟨hbreaking, before, behind, rfl, hbefore⟩ :=
        List.find?_eq_some_iff_append.mp hbreak
      obtain ⟨cause, hcause⟩ := Exchange.breaksOff_iff.mp hbreaking
      refine ⟨⟨before ++ [breaking],
        before.flatMap (Exchange.transcript profile) ++ breaking.shown profile,
        .error (.io cause)⟩, ⟨Exchange.prefix_flatMap_transcript ?_ before, ?_, ?_⟩, ?_⟩
      · simp only [Exchange.shown, Draft.opening, List.append_assoc]
        exact List.prefix_append _ _
      · exact ⟨behind, by simp⟩
      · intro hlater
        simp [hlater breaking (by simp)] at hbreaking
      · intro session exchange hprinter hexchanges hregular
        have hfront : ∀ other ∈ earlier ++ exchange :: before, other.breaksOff = false := by
          rw [List.forall_mem_append, List.forall_mem_cons]
          exact ⟨hearlier, hregular, by simpa using hbefore⟩
        rw [← List.cons_append, ← List.append_assoc] at hexchanges
        rw [run_of_io hprinter hexchanges hfront hcause, Remainder.run]
        simp [Exchange.transcript, Except.map]

/-- A run in which the job of a note is answered with a fault, next to the run in which it is
taken: the same is left of both. -/
def Tolerated (profile : Profile) (session : Session) (input : Input)
    (earlier : List Exchange) (exchange : Exchange) (later : List Exchange) : Prop :=
  ∃ rest : Remainder, rest.Follows profile input earlier later ∧
    session.run input (.ofLimit none) = rest.run profile session earlier exchange ∧
    (session.granting earlier.length).run input (.ofLimit none) =
      rest.run profile (session.granting earlier.length) earlier exchange.granted

/-- A run that is broken off tells neither of the fault nor of anything behind it. -/
theorem not_tolerated_of_io {cause : IoFault} (hprinter : session.printer = .ofProfile profile)
    (hexchanges : Exchange.ofLines session input.lines = earlier ++ exchange :: later)
    (hearlier : ∀ exchange ∈ earlier, exchange.breaksOff = false)
    (hcause : exchange.answer = some (.io cause)) :
    ¬Tolerated profile session input earlier exchange later := by
  rintro ⟨rest, hfollows, hrun, -⟩
  rw [run_of_io hprinter hexchanges hearlier hcause] at hrun
  have htaken := congrArg (fun run => run.2.2.taken) hrun
  simp only [Remainder.run, Sink.taken_write_ofLimit] at htaken
  have htext := Text.utf8_injective htaken
  rw [List.append_assoc _ (exchange.notice profile), List.self_eq_append_right,
    List.append_eq_nil_iff] at htext
  have hasks := hfollows.asks
  rw [htext.2, List.prefix_nil] at hasks
  exact absurd hasks (by decide)

/-- A note whose job is answered with a fault counts as failed, and the run goes on as if the
job had been taken, if and only if the fault is none of input or output. Otherwise the run ends
with that fault. -/
theorem failed_send_tolerated_iff {fault : Fault}
    (hprinter : session.printer = .ofProfile profile)
    (hexchanges : Exchange.ofLines session input.lines = earlier ++ exchange :: later)
    (hearlier : ∀ exchange ∈ earlier, exchange.breaksOff = false)
    (hfault : exchange.answer = some fault) :
    (Tolerated profile session input earlier exchange later ↔ ∀ cause, fault ≠ .io cause) ∧
      ∀ cause, fault = .io cause →
        session.run input (.ofLimit none) =
          (.error (.io cause), session.past profile (earlier ++ [exchange]),
            (Sink.ofLimit none).write
              (earlier.flatMap (Exchange.transcript profile) ++ exchange.shown profile)) := by
  refine ⟨⟨?_, ?_⟩, ?_⟩
  · rintro htolerated cause rfl
    exact not_tolerated_of_io hprinter hexchanges hearlier hfault htolerated
  · intro hnotIo
    have hregular : exchange.breaksOff = false := by
      rw [← Bool.not_eq_true, Exchange.breaksOff_iff, hfault]
      rintro ⟨cause, hcause⟩
      exact hnotIo cause (Option.some.inj hcause)
    obtain ⟨rest, hfollows, hruns⟩ := exists_remainder profile input later hearlier
    exact ⟨rest, hfollows, hruns session exchange hprinter hexchanges hregular,
      hruns _ exchange.granted hprinter (Exchange.ofLines_granting hexchanges) rfl⟩
  · rintro cause rfl
    exact run_of_io hprinter hexchanges hearlier hfault

/-- The second one of three notes is refused. -/
theorem failed_send_tolerated_jammed :
    let session : Session := .ofProfile .default (.scripted [none, some "paper jam".toList])
      fun _ => default
    let input : Input := ⟨["a", "one", "", "", "b", "two", "", "", "c", "three", "", ""].map
      String.toList, .cancelled⟩
    let note : String → String → Option Fault → Exchange := fun subject line answer =>
      ⟨⟨subject.toList, [line.toList, [], []]⟩, default, answer⟩
    let jammed := note "b" "two" (some (.transport (.reported "paper jam".toList)))
    session.printer = .ofProfile .default ∧
      Exchange.ofLines session input.lines =
        [note "a" "one" none] ++ jammed :: [note "c" "three" none] ∧
      (∀ exchange ∈ [note "a" "one" none], exchange.breaksOff = false) ∧
      jammed.answer = some (.transport (.reported "paper jam".toList)) ∧
      Tolerated .default session input [note "a" "one" none] jammed
        [note "c" "three" none] := by
  intro session input note jammed
  have hdrafts : (Segmentation.ofLines input.lines).drafts =
      [("a", "one"), ("b", "two"), ("c", "three")].map fun (subject, line) =>
        ⟨subject.toList, [line.toList, [], []]⟩ := by decide +kernel
  have hexchanges : Exchange.ofLines session input.lines =
      [note "a" "one" none] ++ jammed :: [note "c" "three" none] := by
    rw [Exchange.ofLines, hdrafts]
    rfl
  have hearlier : ∀ exchange ∈ [note "a" "one" none], exchange.breaksOff = false := by
    simp [note, Exchange.breaksOff]
  exact ⟨rfl, hexchanges, hearlier, rfl,
    (failed_send_tolerated_iff rfl hexchanges hearlier rfl).1.mpr (by simp)⟩

/-- A link that reports a broken pipe in place of a fault of its own: the first note is not said
to have failed, and the second one is never asked for. -/
theorem broken_pipe_not_tolerated :
    let broken : Fault := .io (.reported "Broken pipe (os error 32)".toList)
    let link : Link :=
      ⟨"pipe".toList, fun _ asked => if asked = 0 then some broken else none, 0, #[]⟩
    let session : Session := .ofProfile .default link fun _ => default
    let input : Input := ⟨["a", "one", "", "", "b", "two", "", ""].map String.toList, .closed⟩
    let note : String → String → Option Fault → Exchange := fun subject line answer =>
      ⟨⟨subject.toList, [line.toList, [], []]⟩, default, answer⟩
    Exchange.ofLines session input.lines =
        [] ++ note "a" "one" (some broken) :: [note "b" "two" none] ∧
      (session.run input (.ofLimit none)).1 = .error broken ∧
      (session.run input (.ofLimit none)).2.1.link.handedOver.size = 1 ∧
      ¬Tolerated .default session input [] (note "a" "one" (some broken))
        [note "b" "two" none] := by
  intro broken link session input note
  have hdrafts : (Segmentation.ofLines input.lines).drafts =
      [("a", "one"), ("b", "two")].map fun (subject, line) =>
        ⟨subject.toList, [line.toList, [], []]⟩ := by decide +kernel
  have hexchanges : Exchange.ofLines session input.lines =
      [] ++ note "a" "one" (some broken) :: [note "b" "two" none] := by
    rw [Exchange.ofLines, hdrafts]
    rfl
  have hrun := @run_of_io .default session input [] _ _ _ rfl hexchanges (by simp) rfl
  refine ⟨hexchanges, ?_, ?_, not_tolerated_of_io rfl hexchanges (by simp) rfl⟩
  · rw [hrun]
  · rw [hrun]
    rfl

end Session

end ReceiptNotes
