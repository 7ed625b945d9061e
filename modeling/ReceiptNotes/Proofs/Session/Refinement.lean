import ReceiptNotes.Proofs.Session.Telling

/-! # A dialogue prints the notes of its lines

Hearing one line at a time, a dialogue does what cutting all of its lines into notes
beforehand would do. The induction follows the cut: whenever the dialogue asks for a
subject, its state is given by the exchanges behind it, and the lines before it are
still to be cut (`foldl_step_regular_lines`).
-/

namespace ReceiptNotes

open Dialogue (asking unfinished)

/-- How a run that has come to the end of its input is counted. -/
def Ending.outcome (printed failed : Nat) : Ending → Except Fault Summary
  | .closed => .ok ⟨printed, failed, .inputClosed⟩
  | .cancelled => .ok ⟨printed, failed, .cancelled⟩
  | .broken cause => .error (.io cause)

namespace Dialogue

/-- A dialogue whose output has no limit and that no answer breaks off hears any lines: it
prints the notes that they finish, and waits for more. -/
theorem foldl_step_regular_lines (profile : Profile) {out : Sink} {link : Link}
    (clock : Nat → Timestamp) (readings printed failed : Nat) (hlimit : out.limit = none)
    {lines : List Text} {exchanges : List Exchange}
    (hexchanges : Exchange.ofDrafts clock readings link (Segmentation.ofLines lines).drafts =
      exchanges)
    (hregular : ∀ exchange ∈ exchanges, exchange.breaksOff = false) :
    ∃ stage, (∀ fault, stage ≠ .over fault) ∧
      lines.foldl (Session.step clock) (asking profile out readings printed failed, link) =
        (⟨.ofProfile profile,
          out.write (exchanges.flatMap (Exchange.transcript profile) ++
            unfinished profile (Segmentation.ofLines lines).unfinished),
          readings + exchanges.length, stage,
          printed + exchanges.countP Exchange.delivered,
          failed + exchanges.countP (!·.delivered)⟩,
          link.record (exchanges.map (Exchange.entry profile))) := by
  -- The output, the counts and the link move on with every note, so they are generalized; that
  -- the output has no limit stays true of it.
  induction lines using Segmentation.induction
    generalizing out readings printed failed link exchanges with
  | nil =>
      refine ⟨.subject, by simp, ?_⟩
      rw [Segmentation.ofLines] at hexchanges ⊢
      subst hexchanges
      simp [asking, tell, unfinished, Sink.overflowed_of_limit_none, hlimit]
  | unfinished subject lines hopen =>
      obtain ⟨result, hfold, htelling⟩ := foldl_step_unfinished profile out clock link
        readings printed failed subject hopen
      refine ⟨.body subject (.ofLines lines), by simp, ?_⟩
      rw [Segmentation.ofLines_of_unfinished hopen] at hexchanges ⊢
      subst hexchanges
      rw [hfold, htelling.settle (by simp), htelling.eq (Sink.overflowed_of_limit_none hlimit)]
      simp
  | finished subject body later hfinished ih =>
      generalize hexchange : Exchange.ofDraft clock readings link ⟨subject, body⟩ = exchange
      have hroom : (out.write (exchange.shown profile)).overflowed = false :=
        Sink.overflowed_of_limit_none hlimit
      rw [Segmentation.ofLines_of_finished hfinished] at hexchanges ⊢
      rw [Exchange.ofDrafts_cons _ _ (exchange.entry profile), hexchange] at hexchanges
      subst hexchanges
      rw [List.forall_mem_cons] at hregular
      obtain ⟨stage, hstage, hlater⟩ := @ih (out.write (exchange.transcript profile))
        (link.record [exchange.entry profile]) (readings + 1)
        (printed + if exchange.delivered then 1 else 0)
        (failed + if !exchange.delivered then 1 else 0) hlimit _ rfl hregular.2
      refine ⟨stage, hstage, ?_⟩
      have hlines : subject :: (body ++ later) = Draft.lines ⟨subject, body⟩ ++ later := rfl
      rw [hlines, List.foldl_append,
        foldl_step_regular printed failed hfinished hexchange hroom hregular.1, hlater]
      simp only [List.flatMap_cons, List.length_cons, List.countP_cons, List.map_cons,
        Sink.write_write, Link.record_record, List.append_assoc, List.singleton_append,
        Prod.mk.injEq, Dialogue.mk.injEq, true_and, and_true]
      refine ⟨?_, ?_, ?_⟩
      · omega
      · omega
      · omega

/-- So it does on a link that has no fault of input or output among its answers. -/
theorem foldl_step_lines (profile : Profile) {out : Sink} {link : Link}
    (clock : Nat → Timestamp) (readings printed failed : Nat) (hlimit : out.limit = none)
    (hanswers : ∀ asked cause, link.answer? .send asked ≠ some (.io cause))
    (lines : List Text) :
    let cut := Segmentation.ofLines lines
    let exchanges := Exchange.ofDrafts clock readings link cut.drafts
    ∃ stage, (∀ fault, stage ≠ .over fault) ∧
      lines.foldl (Session.step clock) (asking profile out readings printed failed, link) =
        (⟨.ofProfile profile,
          out.write (exchanges.flatMap (Exchange.transcript profile) ++
            unfinished profile cut.unfinished),
          readings + exchanges.length, stage,
          printed + exchanges.countP Exchange.delivered,
          failed + exchanges.countP (!·.delivered)⟩,
          link.record (exchanges.map (Exchange.entry profile))) :=
  foldl_step_regular_lines profile clock readings printed failed hlimit rfl fun _ =>
    Exchange.breaksOff_of_mem_ofDrafts hanswers

theorem outcome_of_not_over {dialogue : Dialogue} (h : ∀ fault, dialogue.stage ≠ .over fault)
    (ending : Ending) :
    dialogue.outcome ending = ending.outcome dialogue.printed dialogue.failed := by
  unfold outcome
  split
  next hover => exact absurd hover (h _)
  · rfl
  · rfl
  · rfl

theorem outcome_closed {dialogue : Dialogue} (h : ∀ fault, dialogue.stage ≠ .over fault) :
    dialogue.outcome .closed = .ok ⟨dialogue.printed, dialogue.failed, .inputClosed⟩ :=
  outcome_of_not_over h .closed

end Dialogue

namespace Session

theorem start_eq_asking {session : Session} {profile : Profile}
    (hprinter : session.printer = .ofProfile profile) (out : Sink) :
    Dialogue.start session.printer out session.clockReadings =
      asking profile out session.clockReadings 0 0 := by
  rw [hprinter]
  rfl

theorem run_of_foldl (session : Session) (input : Input) (out : Sink) {dialogue : Dialogue}
    {link : Link}
    (h : input.lines.foldl (step session.clock)
      (.start session.printer out session.clockReadings, session.link) = (dialogue, link)) :
    session.run input out =
      (dialogue.outcome input.ending,
        { session with
          printer := dialogue.printer
          link
          clockReadings := dialogue.clockReadings }, dialogue.out) := by
  rw [run, h]

variable (profile : Profile) (link : Link) (clock : Nat → Timestamp) (readings : Nat)

end Session

end ReceiptNotes
