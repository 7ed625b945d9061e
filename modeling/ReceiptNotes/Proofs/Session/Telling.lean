import ReceiptNotes.Proofs.Command.Lockstep
import ReceiptNotes.Proofs.Session.Exchange

/-! # Telling the operator something

Whatever a dialogue tells the operator either fits on its output, and the dialogue
comes where it wanted to come, or the output overflows on the way, and the dialogue
is cut short. These two outcomes are one relation, `Telling`, which composes: texts
told one after the other are one text told (`Telling.foldl_step`). It is established here
for everything a dialogue tells from one subject prompt to the sending of the note's
job (`foldl_step_draft`).
-/

namespace ReceiptNotes

namespace Note

variable {profile : Profile} {note : Note} {out : Sink}

theorem prepare_of_fits (h : (out.write (note.preview profile)).overflowed = false) :
    note.prepare (.ofProfile profile) out =
      (some (note.job profile), .ofProfile profile, out.write (note.preview profile)) := by
  have hrender := Command.render_of_fits (.ofProfile profile) h
  have hprofile : (Printer.ofProfile profile).profile = profile := rfl
  rw [preview] at h
  rw [prepare, hprofile, hrender]
  simp only [h, Bool.false_eq_true, if_false, Printer.takeJob, Printer.clear,
    Printer.profile_finish, Command.profile_performAll, hprofile, preview]
  rw [job, Command.performAll_append]
  rfl

/-- If the preview does not fit, there is no job. -/
theorem prepare_of_overflowed (h : (out.write (note.preview profile)).overflowed = true) :
    ∃ told, told <+: note.preview profile ∧ (out.write told).overflowed = true ∧
      note.prepare (.ofProfile profile) out = (none, .ofProfile profile, out.write told) := by
  have hprofile : (Printer.ofProfile profile).profile = profile := rfl
  obtain ⟨hsame, told, hfront, hout, hover⟩ :=
    Command.render_of_overflowed (.ofProfile profile) h
  refine ⟨told, hfront, hover, ?_⟩
  rw [prepare, hprofile]
  simp only [hout, hover, if_true, Printer.clear, hsame, hprofile]

end Note

namespace Dialogue

variable {profile : Profile} {out : Sink} {first second text : Text}

/-- A dialogue that is over because `text` does not fit on `out`. -/
structure CutShort (profile : Profile) (out : Sink) (text : Text) (dialogue : Dialogue) :
    Prop where
  stage : dialogue.stage = .over (.io .outputFull)
  printer : dialogue.printer = .ofProfile profile
  told : ∃ told, told <+: text ∧ (out.write told).overflowed = true ∧
    dialogue.out = out.write told

/-- To tell `text` on `out` leads to `goal`, or else is cut short. -/
def Telling (profile : Profile) (out : Sink) (text : Text) (goal result : Dialogue) : Prop :=
  if (out.write text).overflowed then CutShort profile out text result else result = goal

variable {dialogue goal result : Dialogue} {clock : Nat → Timestamp} {link : Link}
  {stage : Stage}

theorem CutShort.append (h : CutShort profile out first dialogue) :
    CutShort profile out (first ++ second) dialogue := by
  obtain ⟨told, hfront, hover, hout⟩ := h.told
  exact ⟨h.stage, h.printer, told, hfront.trans (List.prefix_append _ _), hover, hout⟩

theorem CutShort.of_write (h : CutShort profile (out.write first) second dialogue) :
    CutShort profile out (first ++ second) dialogue := by
  obtain ⟨told, hfront, hover, hout⟩ := h.told
  rw [Sink.write_write] at hover hout
  exact ⟨h.stage, h.printer, first ++ told, (List.prefix_append_right_inj _).mpr hfront,
    hover, hout⟩

theorem CutShort.settle (h : CutShort profile out text dialogue) :
    dialogue.settle link = (dialogue, link) := by
  rw [Dialogue.settle, h.stage]

namespace Telling

theorem cutShort (h : Telling profile out text goal result)
    (hover : (out.write text).overflowed = true) : CutShort profile out text result := by
  rwa [Telling, if_pos hover] at h

theorem eq (h : Telling profile out text goal result)
    (hfits : (out.write text).overflowed = false) : result = goal := by
  rwa [Telling, hfits, if_neg Bool.false_ne_true] at h

/-- What is cut short remains so if more is to be told. -/
theorem append {middle : Dialogue} (h : Telling profile out first middle result)
    (hcut : (out.write first).overflowed = true) :
    Telling profile out (first ++ second) goal result := by
  rw [Telling, if_pos (Sink.overflowed_write_of_prefix (List.prefix_append _ _) hcut)]
  exact (h.cutShort hcut).append

theorem of_write (h : Telling profile (out.write first) second goal result) :
    Telling profile out (first ++ second) goal result := by
  rw [Telling, Sink.write_write] at h
  rw [Telling]
  split
  next hover =>
      rw [if_pos hover] at h
      exact h.of_write
  next hfits => rwa [if_neg hfits] at h

/-- Nothing is sent at the end of a telling that does not lead to a sending. -/
theorem settle (h : Telling profile out text goal result)
    (hgoal : ∀ job, goal.stage ≠ .sending job) : result.settle link = (result, link) := by
  cases hcut : (out.write text).overflowed with
  | true => exact (h.cutShort hcut).settle
  | false =>
      rw [h.eq hcut, Dialogue.settle]
      split
      next job hsending => exact absurd hsending (hgoal job)
      · rfl

end Telling

theorem tell_append (dialogue : Dialogue) (first second : Text) (stage : Stage) :
    dialogue.tell (first ++ second) stage =
      tell { dialogue with out := dialogue.out.write first } second stage := by
  simp only [tell, Sink.write_write]

theorem telling_tell (dialogue : Dialogue) (text : Text) (stage : Stage)
    (hprinter : dialogue.printer = .ofProfile profile) :
    Telling profile dialogue.out text
      { dialogue with out := dialogue.out.write text, stage } (dialogue.tell text stage) := by
  rw [Telling, tell]
  split
  next hover => exact ⟨rfl, hprinter, text, List.prefix_rfl, hover, rfl⟩
  · rfl

theorem telling_present (dialogue : Dialogue) (note : Note)
    (hprinter : dialogue.printer = .ofProfile profile) :
    Telling profile dialogue.out (note.preview profile)
      { dialogue with
        out := dialogue.out.write (note.preview profile)
        clockReadings := dialogue.clockReadings + 1
        stage := .sending (note.job profile) } (dialogue.present note) := by
  rw [Telling, present, hprinter]
  split
  next hover =>
      obtain ⟨told, hfront, htold, hprepare⟩ := Note.prepare_of_overflowed hover
      rw [hprepare]
      exact ⟨rfl, rfl, told, hfront, htold, rfl⟩
  next hfits =>
      rw [Note.prepare_of_fits (Bool.not_eq_true _ ▸ hfits)]

/-- Nothing that is said to a dialogue that is over is heard. -/
theorem foldl_step_over {fault : Fault} (h : dialogue.stage = .over fault) (lines : List Text) :
    lines.foldl (Session.step clock) (dialogue, link) = (dialogue, link) := by
  induction lines with
  | nil => rfl
  | cons line lines ih =>
      have hstep : Session.step clock (dialogue, link) line = (dialogue, link) := by
        simp only [Session.step, hear, h, Dialogue.settle]
      rw [List.foldl_cons, hstep]
      exact ih

/-- Two texts told one after the other, some lines being heard after the first one, are
one text told: if the first one is cut short, the lines are not heard. -/
theorem Telling.foldl_step {middle between : Dialogue} {lines : List Text}
    (hfirst : Telling profile out first middle between)
    (hsecond : (out.write first).overflowed = false →
      ∃ result, lines.foldl (Session.step clock) (middle, link) = result.settle link ∧
        Telling profile (out.write first) second goal result) :
    ∃ result, lines.foldl (Session.step clock) (between, link) = result.settle link ∧
      Telling profile out (first ++ second) goal result := by
  cases hcut : (out.write first).overflowed with
  | true =>
      have hshort := hfirst.cutShort hcut
      refine ⟨between, ?_, hfirst.append hcut⟩
      rw [foldl_step_over hshort.stage, hshort.settle]
  | false =>
      obtain ⟨result, hfold, htelling⟩ := hsecond hcut
      refine ⟨result, ?_, htelling.of_write⟩
      rw [hfirst.eq hcut, hfold]

section Hearing

variable (clock : Nat → Timestamp) (link : Link) (dialogue : Dialogue) {subject line : Text}
  {captured lines : List Text}

theorem step_subject (subject : Text) (hprinter : dialogue.printer = .ofProfile profile)
    (hstage : dialogue.stage = .subject) :
    ∃ heard, Session.step clock (dialogue, link) subject = (heard, link) ∧
      Telling profile dialogue.out (greeting profile subject ++ linePrompt)
        { dialogue with
          out := dialogue.out.write (greeting profile subject ++ linePrompt)
          stage := .body subject (.ofLines []) } heard := by
  have htell := telling_tell dialogue (greeting profile subject ++ linePrompt)
    (.body subject (.ofLines [])) hprinter
  refine ⟨_, ?_, htell⟩
  rw [← htell.settle (by simp), Session.step, hear, hstage]
  simp only [rule, hprinter]
  rfl

/-- A line that does not end the body is captured, and the next one is asked for. -/
theorem step_body (hprinter : dialogue.printer = .ofProfile profile)
    (hstage : dialogue.stage = .body subject (.ofLines captured))
    (hopen : ¬ EndsBody (captured ++ [line])) :
    ∃ heard, Session.step clock (dialogue, link) line = (heard, link) ∧
      Telling profile dialogue.out linePrompt
        { dialogue with
          out := dialogue.out.write linePrompt
          stage := .body subject (.ofLines (captured ++ [line])) } heard := by
  have hpush : (Body.ofLines captured).push line = .ofLines (captured ++ [line]) := by
    simp [Body.ofLines, Body.push]
  have hincomplete : (Body.ofLines (captured ++ [line])).isComplete = false := by
    rw [← Bool.not_eq_true, Body.isComplete_iff, Body.lines_ofLines]
    exact hopen
  have htell :=
    telling_tell dialogue linePrompt (.body subject (.ofLines (captured ++ [line]))) hprinter
  refine ⟨_, ?_, htell⟩
  rw [← htell.settle (by simp), Session.step, hear, hstage]
  simp only [hpush, hincomplete, Bool.false_eq_true, if_false]

/-- A line that ends the body has the note shown and its job sent. -/
theorem step_last (hprinter : dialogue.printer = .ofProfile profile)
    (hstage : dialogue.stage = .body subject (.ofLines captured))
    (hends : EndsBody (captured ++ [line])) :
    let note := Draft.note ⟨subject, captured ++ [line]⟩ (clock dialogue.clockReadings)
    let closing := indented profile.rule ++ ['\n'] ++ note.preview profile
    ∃ result, Session.step clock (dialogue, link) line = result.settle link ∧
      Telling profile dialogue.out closing
        { dialogue with
          out := dialogue.out.write closing
          clockReadings := dialogue.clockReadings + 1
          stage := .sending (note.job profile) } result := by
  intro note closing
  have hpush : (Body.ofLines captured).push line = .ofLines (captured ++ [line]) := by
    simp [Body.ofLines, Body.push]
  have hcomplete : (Body.ofLines (captured ++ [line])).isComplete = true := by
    rw [Body.isComplete_iff, Body.lines_ofLines]
    exact hends
  have hnote : note = ⟨subject, clock dialogue.clockReadings,
      (Body.ofLines (captured ++ [line])).finish⟩ := by
    rw [Body.finish_eq, Body.lines_ofLines]
    rfl
  have hrule : dialogue.rule = profile.rule := by
    rw [rule, hprinter]
    rfl
  have htell := telling_tell dialogue (indented profile.rule ++ ['\n'])
    (.body subject (.ofLines captured)) hprinter
  refine ⟨_, rfl, ?_⟩
  rw [hear, hstage]
  simp only [hpush, hcomplete, if_true, hrule, ← hnote]
  split
  next hcut =>
      -- The rule under the lines does not fit: the note is not shown and has no job.
      exact htell.append hcut
  next hroom =>
      rw [htell.eq (by simpa [tell] using hroom)]
      have hpresent := telling_present
        { dialogue with
          out := dialogue.out.write (indented profile.rule ++ ['\n'])
          stage := .body subject (.ofLines captured) } note hprinter
      simp only [Sink.write_write] at hpresent
      exact hpresent.of_write

theorem foldl_step_body (hprinter : dialogue.printer = .ofProfile profile)
    (hstage : dialogue.stage = .body subject (.ofLines captured))
    (hroom : dialogue.out.overflowed = false)
    (hopen : ∀ heard, heard <+: lines → heard ≠ [] → ¬ EndsBody (captured ++ heard)) :
    ∃ result, lines.foldl (Session.step clock) (dialogue, link) = result.settle link ∧
      Telling profile dialogue.out (linePrompts lines.length)
        { dialogue with
          out := dialogue.out.write (linePrompts lines.length)
          stage := .body subject (.ofLines (captured ++ lines)) } result := by
  induction lines generalizing dialogue captured with
  | nil =>
      refine ⟨dialogue, ?_, ?_⟩
      · rw [List.foldl_nil, Dialogue.settle, hstage]
      · rw [List.length_nil, linePrompts_zero, Telling, Sink.write_nil, List.append_nil, hroom,
          if_neg Bool.false_ne_true, ← hstage]
  | cons line lines ih =>
      have hline : ¬ EndsBody (captured ++ [line]) :=
        hopen [line] (List.cons_prefix_cons.mpr ⟨rfl, List.nil_prefix⟩) (by simp)
      obtain ⟨heard, hstep, htelling⟩ :=
        step_body clock link dialogue hprinter hstage hline
      rw [List.foldl_cons, hstep, List.length_cons, linePrompts_succ]
      apply htelling.foldl_step
      intro hroom
      have hlater := ih
        { dialogue with
          out := dialogue.out.write linePrompt
          stage := .body subject (.ofLines (captured ++ [line])) }
        hprinter rfl hroom ?_
      · simpa only [Sink.write_write, List.append_assoc, List.singleton_append] using hlater
      · intro heard hheard hne
        rw [List.append_assoc]
        exact hopen (line :: heard) ((List.prefix_cons_inj line).mpr hheard) (by simp)

end Hearing

/-- A dialogue that asks for a subject, with nothing buffered. -/
def asking (profile : Profile) (out : Sink) (readings printed failed : Nat) : Dialogue :=
  tell ⟨.ofProfile profile, out, readings, .subject, printed, failed⟩ subjectPrompt .subject

theorem stage_asking (profile : Profile) {out : Sink} (readings printed failed : Nat)
    (hfits : (out.write subjectPrompt).overflowed = false) :
    (asking profile out readings printed failed).stage = .subject := by
  rw [asking, tell]
  simp only [hfits, Bool.false_eq_true, if_false]

section Typing

variable (profile : Profile) (out : Sink) (clock : Nat → Timestamp) (link : Link)
  (readings printed failed : Nat)

/-- A dialogue hears a subject and lines that do not finish its note. -/
theorem foldl_step_unfinished (subject : Text) {lines : List Text}
    (hopen : ∀ body, body <+: lines → ¬ EndsBody body) :
    ∃ result,
      (subject :: lines).foldl (Session.step clock)
        (asking profile out readings printed failed, link) = result.settle link ∧
      Telling profile out (unfinished profile (subject :: lines))
        ⟨.ofProfile profile, out.write (unfinished profile (subject :: lines)), readings,
          .body subject (.ofLines lines), printed, failed⟩ result := by
  have hask : Telling profile out subjectPrompt
      ⟨.ofProfile profile, out.write subjectPrompt, readings, .subject, printed, failed⟩
      (asking profile out readings printed failed) :=
    telling_tell ⟨.ofProfile profile, out, readings, .subject, printed, failed⟩ _ _ rfl
  rw [unfinished, linePrompts_succ, List.append_assoc, ← List.append_assoc (greeting _ _)]
  apply hask.foldl_step
  intro _
  obtain ⟨heard, hstep, hgreet⟩ := step_subject clock link
    ⟨.ofProfile profile, out.write subjectPrompt, readings, .subject, printed, failed⟩ subject
    rfl rfl
  rw [List.foldl_cons, hstep]
  apply hgreet.foldl_step
  intro hroom
  have hbody := foldl_step_body clock link
    ⟨.ofProfile profile,
      (out.write subjectPrompt).write (greeting profile subject ++ linePrompt), readings,
      .body subject (.ofLines []), printed, failed⟩ rfl rfl hroom
    (fun heard hheard _ => hopen heard hheard)
  simpa only [Sink.write_write, List.append_assoc, List.nil_append] using hbody

/-- A dialogue hears all the lines of a note. -/
theorem foldl_step_draft {draft : Draft} (hfinished : draft.Finished) :
    let note := draft.note (clock readings)
    let shown := draft.opening profile ++ note.preview profile
    ∃ result,
      draft.lines.foldl (Session.step clock)
        (asking profile out readings printed failed, link) = result.settle link ∧
      Telling profile out shown
        ⟨.ofProfile profile, out.write shown, readings + 1, .sending (note.job profile),
          printed, failed⟩ result := by
  intro note shown
  obtain ⟨subject, body⟩ := draft
  have hlength : 3 ≤ body.length := hfinished.ends.1
  obtain ⟨captured, last, rfl⟩ : ∃ captured last, body = captured ++ [last] := by
    rcases List.eq_nil_or_concat body with rfl | ⟨captured, last, rfl⟩
    · simp at hlength
    · exact ⟨captured, last, List.concat_eq_append⟩
  -- Without its last line the body is one that never ends.
  have hopen : ∀ heard, heard <+: captured → ¬ EndsBody heard := by
    intro heard hheard
    apply hfinished.shortest heard (hheard.trans (List.prefix_append _ _))
    rintro rfl
    have hle := hheard.length_le
    simp only [List.length_append, List.length_singleton] at hle
    omega
  obtain ⟨heard, hfold, hheard⟩ :=
    foldl_step_unfinished profile out clock link readings printed failed subject hopen
  have hshown : shown = unfinished profile (subject :: captured) ++
      (indented profile.rule ++ ['\n'] ++ note.preview profile) := by
    simp [shown, Draft.opening, unfinished]
  rw [Draft.lines, ← List.cons_append, List.foldl_append, hfold, hheard.settle (by simp),
    hshown]
  apply hheard.foldl_step
  intro _
  have hlast := step_last clock link
    ⟨.ofProfile profile, out.write (unfinished profile (subject :: captured)), readings,
      .body subject (.ofLines captured), printed, failed⟩
    rfl rfl hfinished.ends
  rw [List.foldl_cons, List.foldl_nil]
  simpa only [Sink.write_write] using hlast

end Typing

section Sending

variable {profile : Profile} {out : Sink} {clock : Nat → Timestamp} {link : Link}
  {readings : Nat} (printed failed : Nat) {draft : Draft} {exchange : Exchange}

/-- Without room for the preview of the note, the dialogue is over and nothing is sent. -/
theorem foldl_step_overflowing (hfinished : draft.Finished)
    (hexchange : Exchange.ofDraft clock readings link draft = exchange)
    (hover : (out.write (exchange.shown profile)).overflowed = true) :
    ∃ result,
      draft.lines.foldl (Session.step clock)
        (asking profile out readings printed failed, link) = (result, link) ∧
      CutShort profile out (exchange.shown profile) result := by
  subst hexchange
  obtain ⟨result, hfold, htelling⟩ :=
    foldl_step_draft profile out clock link readings printed failed hfinished
  have hshort := htelling.cutShort hover
  exact ⟨result, hfold.trans hshort.settle, hshort⟩

section Room

variable (hfinished : draft.Finished)
  (hexchange : Exchange.ofDraft clock readings link draft = exchange)
  (hroom : (out.write (exchange.shown profile)).overflowed = false)

include hfinished hexchange hroom

/-- With room for the preview, the job is sent, and its answer remains to be heard. -/
theorem foldl_step_sending :
    draft.lines.foldl (Session.step clock)
        (asking profile out readings printed failed, link) =
      settle ⟨.ofProfile profile, out.write (exchange.shown profile), readings + 1,
        .sending (exchange.job profile), printed, failed⟩ link := by
  subst hexchange
  obtain ⟨result, hfold, htelling⟩ :=
    foldl_step_draft profile out clock link readings printed failed hfinished
  rw [hfold, htelling.eq hroom]
  rfl

/-- An answer with a fault of input or output ends the dialogue. -/
theorem foldl_step_io {cause : IoFault} (hcause : exchange.answer = some (.io cause)) :
    draft.lines.foldl (Session.step clock)
        (asking profile out readings printed failed, link) =
      (⟨.ofProfile profile, out.write (exchange.shown profile), readings + 1,
        .over (.io cause), printed, failed⟩,
        link.record [exchange.entry profile]) := by
  rw [foldl_step_sending printed failed hfinished hexchange hroom]
  subst hexchange
  simp only [Exchange.ofDraft] at hcause
  simp only [settle, Link.send_eq, Exchange.entry, Exchange.ofDraft, hcause, acknowledge]

theorem foldl_step_breaking (hbreak : exchange.breaksOff = true) :
    ∃ cause,
      draft.lines.foldl (Session.step clock)
          (asking profile out readings printed failed, link) =
        (⟨.ofProfile profile, out.write (exchange.shown profile), readings + 1,
          .over (.io cause), printed, failed⟩,
          link.record [exchange.entry profile]) := by
  obtain ⟨cause, hcause⟩ := Exchange.breaksOff_iff.mp hbreak
  exact ⟨cause, foldl_step_io printed failed hfinished hexchange hroom hcause⟩

/-- After any other answer, the operator is told of it and asked for the next subject. -/
theorem foldl_step_regular (hregular : exchange.breaksOff = false) :
    draft.lines.foldl (Session.step clock)
        (asking profile out readings printed failed, link) =
      (asking profile (out.write (exchange.transcript profile)) (readings + 1)
          (printed + if exchange.delivered then 1 else 0)
          (failed + if !exchange.delivered then 1 else 0),
        link.record [exchange.entry profile]) := by
  rw [foldl_step_sending printed failed hfinished hexchange hroom, Exchange.transcript,
    ← Sink.write_write]
  subst hexchange
  cases hanswer : link.answer? .send link.requests with
  | none =>
      simp only [settle, Link.send_eq, Exchange.entry, Exchange.notice, Exchange.delivered,
        Exchange.ofDraft, hanswer, acknowledge, tell_append]
      rfl
  | some fault =>
      cases fault with
      | io cause => simp [Exchange.breaksOff, Exchange.ofDraft, hanswer] at hregular
      | transport cause | notConnected cause | configuration cause =>
          simp only [settle, Link.send_eq, Exchange.entry, Exchange.notice,
            Exchange.delivered, Exchange.ofDraft, hanswer, acknowledge, tell_append]
          rfl

end Room

end Sending

end Dialogue

end ReceiptNotes
