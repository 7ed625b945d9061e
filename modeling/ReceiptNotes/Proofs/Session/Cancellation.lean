import ReceiptNotes.Proofs.Session.Isolation
import ReceiptNotes.Proofs.Session.Patience

/-! # Cancelling cuts the input short

A dialogue held look by look (`attend`) comes where it comes when it hears what the
operator is heard to type (`attend_eq_foldl`), so the looks of a run can be counted. A
run that ends before the look that finds a cancellation does not notice; any other one
is the run on the items that were delivered before that look (`CancelsAt`). An input
that breaks off is cut short in the same way (`BreaksAfter`).
-/

namespace ReceiptNotes

/-- What has become of a dialogue that was held look by look. -/
structure Vigil where
  dialogue : Dialogue
  link : Link
  ending : Ending
  /-- How many times the prompts have looked for a cancellation. -/
  looks : Nat

namespace Session

/-- Holds a dialogue look by look. Look number `shutdown` finds the dialogue
cancelled; any other one goes on to the input, which may have to be waited for. A
dialogue that is over does not prompt any more. -/
def attend (clock : Nat → Timestamp) (shutdown : Option Nat) (state : Dialogue × Link)
    (looks : Nat) (arrivals : List Arrival) : Vigil :=
  match state.1.stage with
  | .over _ => ⟨state.1, state.2, .closed, looks⟩
  | _ =>
      if shutdown = some (looks + 1) then ⟨state.1, state.2, .cancelled, looks + 1⟩
      else
        match arrivals with
        | [] => ⟨state.1, state.2, .closed, looks + 1⟩
        | .broken cause :: _ => ⟨state.1, state.2, .broken cause, looks + 1⟩
        | .line text 0 :: later => attend clock shutdown (step clock state text) (looks + 1) later
        | .line text (waits + 1) :: later =>
            attend clock shutdown state (looks + 1) (.line text waits :: later)
termination_by (arrivals.map Arrival.looks).sum
decreasing_by
  all_goals simp [Arrival.looks]

/-- A look that does not find the cancellation comes before the one that does. -/
theorem before_of_go {shutdown : Option Nat} {looks : Nat} (h : ∀ look ∈ shutdown, looks < look)
    (hgo : ¬ shutdown = some (looks + 1)) : ∀ look ∈ shutdown, looks + 1 < look := by
  intro look hlook
  have hless := h look hlook
  have hne : look ≠ looks + 1 := by
    rintro rfl
    exact hgo hlook
  omega

theorem patient_of_go {shutdown : Option Nat} {looks : Nat} (h : ∀ look ∈ shutdown, looks < look)
    (hgo : ¬ shutdown = some (looks + 1)) :
    ∀ left ∈ shutdown.map (· - (looks + 1)), 0 < left := by
  intro left hleft
  obtain ⟨look, hlook, rfl⟩ := Option.map_eq_some_iff.mp hleft
  have hless := before_of_go h hgo look hlook
  omega

variable {clock : Nat → Timestamp} {shutdown : Option Nat} {state : Dialogue × Link} {looks : Nat}
  {arrivals : List Arrival}

/-- Held look by look, a dialogue comes where it comes when it hears the whole input. -/
theorem attend_eq_foldl (clock : Nat → Timestamp) (state : Dialogue × Link)
    (arrivals : List Arrival) (h : ∀ look ∈ shutdown, looks < look) :
    let vigil := attend clock shutdown state looks arrivals
    let input := Input.hear (shutdown.map (· - (looks + 1))) arrivals
    let final := input.lines.foldl (step clock) state
    (vigil.dialogue, vigil.link) = final ∧
      vigil.dialogue.outcome vigil.ending = final.1.outcome input.ending := by
  fun_induction attend clock shutdown state looks arrivals with
  | case1 state looks arrivals fault hover =>
      intro vigil input final
      have hstays : final = state := Dialogue.foldl_step_over hover input.lines
      rw [hstays]
      refine ⟨rfl, ?_⟩
      simp only [vigil, Dialogue.outcome, hover]
  | case2 state looks arrivals hcancelled hprompts =>
      intro vigil input final
      have hinput : input = Input.ofEnding .cancelled := by
        simp only [input, hcancelled, Option.map_some, Nat.sub_self]
        cases arrivals <;> rfl
      simp only [final, hinput]
      exact ⟨rfl, rfl⟩
  | case3 state looks hgo hprompts =>
      intro vigil input final
      have hinput : input = Input.ofEnding .closed := Input.hear_nil (patient_of_go h hgo)
      simp only [final, hinput]
      exact ⟨rfl, rfl⟩
  | case4 state looks hgo cause later hprompts =>
      intro vigil input final
      have hinput : input = Input.ofEnding (.broken cause) :=
        Input.hear_broken (patient_of_go h hgo) cause later
      simp only [final, hinput]
      exact ⟨rfl, rfl⟩
  | case5 state looks hgo text later hprompts ih =>
      intro vigil input final
      have hinput : input =
          (Input.hear (shutdown.map (· - (looks + 1 + 1))) later).cons text := by
        simp only [input, Input.hear_present (patient_of_go h hgo), Option.map_map]
        rfl
      simp only [final, hinput]
      exact ih (before_of_go h hgo)
  | case6 state looks hgo text waits later hprompts ih =>
      intro vigil input final
      have hinput : input =
          Input.hear (shutdown.map (· - (looks + 1 + 1))) (.line text waits :: later) := by
        simp only [input, Input.hear_awaited (patient_of_go h hgo), Option.map_map]
        rfl
      simp only [final, hinput]
      exact ih (before_of_go h hgo)

theorem attend_of_over {fault : Fault} (hover : state.1.stage = .over fault) :
    attend clock shutdown state looks arrivals = ⟨state.1, state.2, .closed, looks⟩ := by
  rw [attend.eq_def]
  split
  · rfl
  next hprompts => exact absurd hover (hprompts fault)

/-- A prompt that does not find a cancellation does not depend on when there is one. -/
theorem attend_of_go (hprompts : ∀ fault, state.1.stage ≠ .over fault)
    (hgo : ¬ shutdown = some (looks + 1)) :
    attend clock shutdown state looks arrivals =
      match arrivals with
      | [] => ⟨state.1, state.2, .closed, looks + 1⟩
      | .broken cause :: _ => ⟨state.1, state.2, .broken cause, looks + 1⟩
      | .line text 0 :: later => attend clock shutdown (step clock state text) (looks + 1) later
      | .line text (waits + 1) :: later =>
          attend clock shutdown state (looks + 1) (.line text waits :: later) := by
  rw [attend.eq_def]
  split
  next fault hover => exact absurd hover (hprompts fault)
  · rw [if_neg hgo]

theorem looks_le_attend : looks ≤ (attend clock shutdown state looks arrivals).looks := by
  fun_induction attend clock shutdown state looks arrivals with
  | case5 state looks hgo text later hprompts ih => omega
  | case6 state looks hgo text waits later hprompts ih => omega
  | _ => simp

/-- A dialogue that is never cancelled prompts at most until its input has ended. -/
theorem attend_looks_le :
    (attend clock none state looks arrivals).looks ≤ looks + Input.looks arrivals := by
  generalize hnever : (none : Option Nat) = shutdown
  fun_induction attend clock shutdown state looks arrivals with
  | case1 state looks arrivals => exact Nat.le_add_right _ _
  | case2 state looks arrivals hcancelled => cases hnever.trans hcancelled
  | case3 state looks hgo hprompts => simp [Input.looks]
  | case4 state looks hgo cause later hprompts => simp [Input.looks]
  | case5 state looks hgo text later hprompts ih =>
      simp only [Input.looks, Arrival.looks]
      omega
  | case6 state looks hgo text waits later hprompts ih =>
      simp only [Input.looks, Arrival.looks] at ih ⊢
      omega

/-- A run that ends before a look does not notice what that look would find. -/
theorem attend_eq_of_looks_lt {look : Nat}
    (h : (attend clock none state looks arrivals).looks < look) :
    attend clock (some look) state looks arrivals = attend clock none state looks arrivals := by
  generalize hnever : (none : Option Nat) = shutdown at h ⊢
  fun_induction attend clock shutdown state looks arrivals with
  | case1 state looks arrivals fault hover => exact attend_of_over hover
  | case2 state looks arrivals hcancelled => cases hnever.trans hcancelled
  | case3 state looks hgo hprompts =>
      rw [attend_of_go hprompts (by simpa using Nat.ne_of_gt h)]
  | case4 state looks hgo cause later hprompts =>
      rw [attend_of_go hprompts (by simpa using Nat.ne_of_gt h)]
  | case5 state looks hgo text later hprompts ih =>
      have hlooks := looks_le_attend.trans_lt h
      rw [attend_of_go hprompts (by simpa using Nat.ne_of_gt hlooks)]
      exact ih h
  | case6 state looks hgo text waits later hprompts ih =>
      have hlooks := looks_le_attend.trans_lt h
      rw [attend_of_go hprompts (by simpa using Nat.ne_of_gt hlooks)]
      exact ih h

/-- A run that comes to the look that finds the cancellation is cancelled at a prompt. -/
theorem attend_cancelled {look : Nat} (hlater : looks < look)
    (h : look ≤ (attend clock none state looks arrivals).looks) :
    let vigil := attend clock (some look) state looks arrivals
    vigil.ending = .cancelled ∧ ∀ fault, vigil.dialogue.stage ≠ .over fault := by
  generalize hshutdown : some look = shutdown
  fun_induction attend clock shutdown state looks arrivals with
  | case1 state looks arrivals fault hover =>
      rw [attend_of_over hover] at h
      exact absurd h (Nat.not_le_of_lt hlater)
  | case2 state looks arrivals hcancelled hprompts => exact ⟨rfl, hprompts⟩
  | case3 state looks hgo hprompts =>
      rw [attend_of_go hprompts (by simp)] at h
      have hnext : look ≠ looks + 1 := by simpa [← hshutdown] using hgo
      exact absurd h (by simp only; omega)
  | case4 state looks hgo cause later hprompts =>
      rw [attend_of_go hprompts (by simp)] at h
      have hnext : look ≠ looks + 1 := by simpa [← hshutdown] using hgo
      exact absurd h (by simp only; omega)
  | case5 state looks hgo text later hprompts ih =>
      rw [attend_of_go hprompts (by simp)] at h
      have hnext : look ≠ looks + 1 := by simpa [← hshutdown] using hgo
      exact ih (by omega) h
  | case6 state looks hgo text waits later hprompts ih =>
      rw [attend_of_go hprompts (by simp)] at h
      have hnext : look ≠ looks + 1 := by simpa [← hshutdown] using hgo
      exact ih (by omega) h

end Session

namespace Dialogue

variable {dialogue : Dialogue}

theorem outcome_cancelled (h : ∀ fault, dialogue.stage ≠ .over fault) :
    dialogue.outcome .cancelled = .ok ⟨dialogue.printed, dialogue.failed, .cancelled⟩ :=
  outcome_of_not_over h .cancelled

/-- A read error is told instead of a summary. -/
theorem outcome_broken (cause : IoFault) :
    dialogue.outcome (.broken cause) =
      (dialogue.outcome .closed).bind fun _ => .error (.io cause) := by
  unfold outcome
  cases dialogue.stage <;> rfl

/-- Only a fault of input or output ends a dialogue. -/
def EndedByIo (dialogue : Dialogue) : Prop :=
  ∀ fault, dialogue.stage = .over fault → ∃ cause, fault = .io cause

theorem EndedByIo.tell (text : Text) {stage : Stage} (h : ∀ fault, stage ≠ .over fault) :
    (dialogue.tell text stage).EndedByIo := by
  intro fault hover
  simp only [Dialogue.tell] at hover
  split at hover
  · exact ⟨.outputFull, (Stage.over.inj hover).symm⟩
  · exact absurd hover (h fault)

theorem EndedByIo.hear (h : dialogue.EndedByIo) (now : Timestamp) (line : Text) :
    (dialogue.hear now line).EndedByIo := by
  unfold Dialogue.hear
  split
  · exact EndedByIo.tell _ (by simp)
  next subject captured hstage =>
      simp only
      split
      · split
        · exact EndedByIo.tell _ (by simp [hstage])
        · intro fault hover
          simp only [present] at hover
          split at hover
          · cases hover
          · exact ⟨.outputFull, (Stage.over.inj hover).symm⟩
      · exact EndedByIo.tell _ (by simp)
  · exact h
  · exact h

theorem EndedByIo.settle (h : dialogue.EndedByIo) (link : Link) :
    (dialogue.settle link).1.EndedByIo := by
  unfold Dialogue.settle
  split
  next job hstage =>
      simp only [acknowledge, hstage]
      split
      · exact EndedByIo.tell _ (by simp)
      next _ cause _ _ => exact fun fault hover => ⟨cause, (Stage.over.inj hover).symm⟩
      · exact EndedByIo.tell _ (by simp)
      · exact h
  · exact h

theorem EndedByIo.outcome (h : dialogue.EndedByIo) {fault : Fault}
    (houtcome : dialogue.outcome .closed = .error fault) : ∃ cause, fault = .io cause := by
  unfold Dialogue.outcome at houtcome
  split at houtcome
  next hover => exact Except.error.inj houtcome ▸ h _ hover
  · cases houtcome
  · contradiction
  · contradiction

end Dialogue

namespace Session

/-- A run that is cancelled at the look number `shutdown`, or never. -/
def hold (session : Session) (shutdown : Option Nat) (arrivals : List Arrival)
    (limit : Option Nat) : Except Fault Summary × Session × Sink :=
  session.run (.hear (shutdown.map (· - 1)) arrivals) (.ofLimit limit)

/-- The same run, look by look. -/
def watch (session : Session) (shutdown : Option Nat) (arrivals : List Arrival)
    (limit : Option Nat) : Vigil :=
  attend session.clock shutdown
    (.start session.printer (.ofLimit limit) session.clockReadings, session.link) 0 arrivals

/-- What a run has come to that was watched look by look. -/
def report (session : Session) (vigil : Vigil) : Except Fault Summary × Session × Sink :=
  (vigil.dialogue.outcome vigil.ending,
    { session with
      printer := vigil.dialogue.printer
      link := vigil.link
      clockReadings := vigil.dialogue.clockReadings },
    vigil.dialogue.out)

variable {session : Session} {shutdown : Option Nat} {arrivals : List Arrival} {limit : Option Nat}

theorem report_watch (h : ∀ look ∈ shutdown, 0 < look) :
    session.report (session.watch shutdown arrivals limit) =
      session.hold shutdown arrivals limit := by
  obtain ⟨hstate, houtcome⟩ := attend_eq_foldl session.clock
    (.start session.printer (.ofLimit limit) session.clockReadings, session.link) arrivals h
  rw [hold, run_of_foldl session _ _ hstate.symm, report]
  rw [← hstate] at houtcome
  rw [watch, houtcome]

theorem handedOver_settle (dialogue : Dialogue) (link : Link) :
    link.handedOver.toList <+: (dialogue.settle link).2.handedOver.toList := by
  unfold Dialogue.settle
  split
  · simp [Link.send]
  · exact List.prefix_rfl

theorem handedOver_foldl_step (clock : Nat → Timestamp) (state : Dialogue × Link)
    (lines : List Text) :
    state.2.handedOver.toList <+: (lines.foldl (step clock) state).2.handedOver.toList := by
  induction lines generalizing state with
  | nil => exact List.prefix_rfl
  | cons line lines ih => exact (handedOver_settle _ state.2).trans (ih _)

/-- A run on more lines hands over the same jobs first. -/
theorem handedOver_run_prefix (session : Session) {first second : Input} (out : Sink)
    (h : first.lines <+: second.lines) :
    (session.run first out).2.1.link.handedOver.toList <+:
      (session.run second out).2.1.link.handedOver.toList := by
  obtain ⟨behind, hbehind⟩ := h
  simp only [run, ← hbehind, List.foldl_append]
  exact handedOver_foldl_step session.clock _ behind

theorem endedByIo_foldl_step (clock : Nat → Timestamp) {state : Dialogue × Link}
    (h : state.1.EndedByIo) (lines : List Text) :
    (lines.foldl (step clock) state).1.EndedByIo := by
  induction lines generalizing state with
  | nil => exact h
  | cons line lines ih => exact ih ((h.hear _ line).settle state.2)

/-- What a cancellation at one look does to a run. -/
structure CancelsAt (session : Session) (limit : Option Nat) (arrivals : List Arrival)
    (look : Nat) : Prop where
  /-- A run that ends before that look does not notice. -/
  unnoticed : (session.watch none arrivals limit).looks < look →
    session.hold (some look) arrivals limit = session.hold none arrivals limit
  /-- Any other run is the run on what was delivered before that look, but for the reason of its
  end. An output that had failed would have ended it before. -/
  noticed : look ≤ (session.watch none arrivals limit).looks → ∃ printed failed later out,
    session.hold none (Arrival.before look arrivals) limit =
        (.ok ⟨printed, failed, .inputClosed⟩, later, out) ∧
      session.hold (some look) arrivals limit =
        (.ok ⟨printed, failed, .cancelled⟩, later, out)
  /-- What was delivered before that look are the most items whose own looks come before it. -/
  delivered : ∀ items, items <+: arrivals →
    ((items.map Arrival.looks).sum < look ↔ items <+: Arrival.before look arrivals)
  /-- In either case the jobs are the first ones of the run that is not cancelled. -/
  jobs : (session.hold (some look) arrivals limit).2.1.link.handedOver.toList <+:
    (session.hold none arrivals limit).2.1.link.handedOver.toList

/-- What a read error behind some lines does to a run. -/
structure BreaksAfter (session : Session) (limit : Option Nat) (lines : List (Text × Nat))
    (cause : IoFault) (behind : List Arrival) : Prop where
  /-- The run is the run on the lines, but it ends with a fault of input or output: the read
  error, unless the output or an answer had ended the run before. -/
  broken : ∃ result later out,
    session.hold none (Input.ofLines lines) limit = (result, later, out) ∧
      session.hold none (Input.ofLines lines ++ .broken cause :: behind) limit =
        (result.bind fun _ => .error (.io cause), later, out) ∧
      ∀ fault, result = .error fault → ∃ cause, fault = .io cause
  /-- The jobs are the first ones of any run in which something else follows the lines. -/
  jobs : ∀ more,
    (session.hold none
        (Input.ofLines lines ++ .broken cause :: behind) limit).2.1.link.handedOver.toList <+:
      (session.hold none (Input.ofLines lines ++ more) limit).2.1.link.handedOver.toList

theorem cancelsAt {look : Nat} (hlook : 0 < look) : CancelsAt session limit arrivals look where
  unnoticed h := by
    calc session.hold (some look) arrivals limit
        = session.report (session.watch (some look) arrivals limit) :=
          (report_watch (by simpa using hlook)).symm
      _ = session.report (session.watch none arrivals limit) :=
          congrArg session.report (attend_eq_of_looks_lt h)
      _ = session.hold none arrivals limit := report_watch (by simp)
  noticed h := by
    have hlooks : look - 1 < Input.looks arrivals := by
      have hle := h.trans attend_looks_le
      omega
    obtain ⟨lines, hcancelled, hclosed⟩ := Input.hear_of_impatient hlooks
    rw [Nat.sub_add_cancel hlook] at hclosed
    obtain ⟨-, hprompts⟩ := attend_cancelled hlook h
    have hthere : ∀ found ∈ some look, 0 < found := by simpa using hlook
    obtain ⟨hstate, -⟩ := attend_eq_foldl session.clock
      (.start session.printer (.ofLimit limit) session.clockReadings, session.link) arrivals hthere
    rw [Option.map_some, Nat.zero_add, hcancelled] at hstate
    have hclosedRun := run_of_foldl session ⟨lines, .closed⟩ (.ofLimit limit) hstate.symm
    have hcancelledRun := run_of_foldl session ⟨lines, .cancelled⟩ (.ofLimit limit) hstate.symm
    rw [Dialogue.outcome_closed hprompts, ← hclosed] at hclosedRun
    rw [Dialogue.outcome_cancelled hprompts, ← hcancelled] at hcancelledRun
    exact ⟨_, _, _, _, hclosedRun, hcancelledRun⟩
  delivered items hitems :=
    ⟨Arrival.prefix_before hitems, fun h => Arrival.looks_lt_of_prefix_before hlook h⟩
  jobs := handedOver_run_prefix session _ (Input.lines_hear_prefix _ arrivals)

theorem breaksAfter (lines : List (Text × Nat)) (cause : IoFault) (behind : List Arrival) :
    BreaksAfter session limit lines cause behind where
  broken := by
    have hlines : Input.hear none (Input.ofLines lines) = ⟨lines.map Prod.fst, .closed⟩ := by
      simpa [Input.hear, Input.ofEnding] using Input.hear_ofLines_append lines []
    have hbroken : Input.hear none (Input.ofLines lines ++ .broken cause :: behind) =
        ⟨lines.map Prod.fst, .broken cause⟩ := by
      simpa [Input.hear, Input.ofEnding] using
        Input.hear_ofLines_append lines (.broken cause :: behind)
    have hended : (Dialogue.start session.printer (.ofLimit limit)
        session.clockReadings).EndedByIo := .tell _ (by simp)
    refine ⟨_, _, _, rfl, ?_, ?_⟩
    · simp only [hold, Option.map_none, hlines, hbroken, run, Dialogue.outcome_broken]
    · intro fault hresult
      simp only [Option.map_none, hlines] at hresult
      exact (endedByIo_foldl_step session.clock hended (lines.map Prod.fst)).outcome hresult
  jobs more := by
    apply handedOver_run_prefix
    simp only [Option.map_none, Input.hear_ofLines_append]
    exact (List.prefix_append_right_inj _).mpr List.nil_prefix

/-- Cancelling a run, or a read error, is the same as closing its input at that point. Watched
look by look, a run is the run on what is heard, so the looks are those of the run; and whatever
has been sent belongs to whole notes of the lines that were delivered. -/
theorem interruption_truncates (profile : Profile) (link : Link) (clock : Nat → Timestamp)
    (readings : Nat) (limit : Option Nat) (arrivals : List Arrival) :
    let session : Session := ⟨.ofProfile profile, link, clock, readings⟩
    (∀ look, 0 < look → CancelsAt session limit arrivals look) ∧
    (∀ lines cause behind, BreaksAfter session limit lines cause behind) ∧
    (∀ shutdown, (∀ look ∈ shutdown, 0 < look) →
      session.report (session.watch shutdown arrivals limit) =
        session.hold shutdown arrivals limit) ∧
    ∀ shutdown, ∃ sent,
      sent <+: Exchange.ofLines session (Input.hear (shutdown.map (· - 1)) arrivals).lines ∧
      (session.hold shutdown arrivals limit).2.1.link =
        link.record (sent.map (Exchange.entry profile)) := by
  intro session
  refine ⟨fun look hlook => cancelsAt hlook, breaksAfter, fun shutdown h => report_watch h,
    fun shutdown => ?_⟩
  have hprinter : session.printer = .ofProfile profile := rfl
  obtain ⟨result, later, out, sent, hrun, hisolated⟩ :=
    run_isolated hprinter (.hear (shutdown.map (· - 1)) arrivals) limit
  refine ⟨sent, hisolated.first, ?_⟩
  rw [hold, hrun]
  exact hisolated.handed

/-- A run that is cancelled while it waits for a line of its second note has printed the
first one, as the run on the five lines before would have. -/
theorem interruption_truncates_waiting :
    let session : Session := .ofProfile .default (.memory false) fun _ => default
    let arrivals : List Arrival :=
      [.line ['a'] 0, .line ['b'] 1, .line [] 0, .line [] 0, .line ['c'] 0, .line ['d'] 3]
    0 < 8 ∧ 8 ≤ (session.watch none arrivals none).looks ∧
      Arrival.before 8 arrivals = arrivals.take 5 ∧
      ∃ later out,
        session.hold none (arrivals.take 5) none = (.ok ⟨1, 0, .inputClosed⟩, later, out) ∧
        session.hold (some 8) arrivals none = (.ok ⟨1, 0, .cancelled⟩, later, out) := by
  intro session arrivals
  have hnoticed : 8 ≤ (session.watch none arrivals none).looks := by decide +kernel
  have hbefore : Arrival.before 8 arrivals = arrivals.take 5 := by decide
  obtain ⟨printed, failed, later, out, hclosed, hcancelled⟩ :=
    ((interruption_truncates .default (.memory false) (fun _ => default) 0 none arrivals).1 8
      (by decide)).noticed hnoticed
  have hsummary : (session.hold none (arrivals.take 5) none).1.toOption =
      some ⟨1, 0, .inputClosed⟩ := by decide +kernel
  have hsession : session = ⟨.ofProfile .default, .memory false, fun _ => default, 0⟩ := rfl
  rw [← hsession, hbefore] at hclosed
  rw [hclosed] at hsummary
  obtain ⟨rfl, rfl⟩ : printed = 1 ∧ failed = 0 := by simpa [Except.toOption] using hsummary
  exact ⟨by decide, hnoticed, hbefore, later, out, hclosed, hcancelled⟩

end Session

end ReceiptNotes
