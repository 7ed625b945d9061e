import ReceiptNotes.Proofs.Session.Refinement

/-! # No note is mixed with another

Whatever a session has done before, and however a run or a single note ends, nothing
is left in the printer's buffer. So every job is the job of one note alone, and it is
handed over once, after the whole preview of that note has been taken by the output,
or not at all (`jobs_isolated`). Of a run, the exchanges whose jobs are handed over
are known beforehand (`Exchange.handed`): the output must have room for them, and a
fault of input or output in an answer is the last of them.
-/

namespace ReceiptNotes

open Dialogue (asking subjectPrompt CutShort Telling)

namespace Exchange

/-- The exchanges whose jobs are handed over by a dialogue on an output. -/
def handed (profile : Profile) (out : Sink) : List Exchange → List Exchange
  | [] => []
  | exchange :: later =>
      if (out.write (exchange.shown profile)).overflowed then []
      else if exchange.breaksOff then [exchange]
      else exchange :: handed profile (out.write (exchange.transcript profile)) later

variable {profile : Profile} {out : Sink} {exchange : Exchange} {earlier exchanges : List Exchange}

theorem handed_prefix : handed profile out exchanges <+: exchanges := by
  induction exchanges generalizing out with
  | nil => exact List.prefix_rfl
  | cons exchange later ih =>
      rw [handed]
      split
      · exact List.nil_prefix
      split
      · exact List.cons_prefix_cons.mpr ⟨rfl, List.nil_prefix⟩
      · exact List.cons_prefix_cons.mpr ⟨rfl, ih⟩

/-- Some told text holds the previews of all notes whose jobs have been sent, each behind
all that was shown of the notes before it. -/
def ShownIn (profile : Profile) (told : Text) (sent : List Exchange) : Prop :=
  ∀ earlier exchange, earlier ++ [exchange] <+: sent →
    earlier.flatMap (transcript profile) ++ exchange.shown profile <+: told

variable {told : Text} {sent : List Exchange}

theorem shownIn_nil : ShownIn profile told [] := by
  intro earlier exchange h
  simp at h

theorem shownIn_singleton : ShownIn profile (exchange.shown profile) [exchange] := by
  intro earlier last h
  cases earlier with
  | nil =>
      obtain ⟨rfl, -⟩ := List.cons_prefix_cons.mp h
      exact List.prefix_rfl
  | cons first earlier => simp at h

theorem ShownIn.cons (h : ShownIn profile told sent) :
    ShownIn profile (exchange.transcript profile ++ told) (exchange :: sent) := by
  intro earlier last hlast
  cases earlier with
  | nil =>
      obtain ⟨rfl, -⟩ := List.cons_prefix_cons.mp hlast
      rw [transcript, List.append_assoc]
      exact List.prefix_append _ _
  | cons first earlier =>
      obtain ⟨rfl, hbehind⟩ := List.cons_prefix_cons.mp hlast
      rw [List.flatMap_cons, List.append_assoc]
      exact (List.prefix_append_right_inj _).mpr (h earlier last hbehind)

/-- There is room for the whole preview of every note whose job is handed over. -/
theorem room_of_handed (h : earlier ++ [exchange] <+: handed profile out exchanges) :
    (out.write (earlier.flatMap (transcript profile) ++ exchange.shown profile)).overflowed =
      false := by
  -- What is behind the first exchange is told on an output that has taken its transcript.
  induction exchanges generalizing out earlier with
  | nil =>
      rw [handed] at h
      simp at h
  | cons first later ih =>
      rw [handed] at h
      split at h
      · simp at h
      next hroom =>
          cases earlier with
          | nil =>
              have hfirst : exchange = first := by
                split at h
                · exact (List.cons_prefix_cons.mp h).1
                · exact (List.cons_prefix_cons.mp h).1
              rw [List.flatMap_nil, List.nil_append, hfirst]
              exact Bool.not_eq_true _ ▸ hroom
          | cons second earlier =>
              split at h
              · simp at h
              · obtain ⟨rfl, hlater⟩ := List.cons_prefix_cons.mp h
                have hlong := ih hlater
                rwa [Sink.write_write, ← List.append_assoc, ← List.flatMap_cons] at hlong

/-- If the next job is not handed over, there is no room for the preview of its note, or
the answer to the last job was a fault that ends the dialogue. -/
theorem next_of_handed (h : handed profile out exchanges ++ [exchange] <+: exchanges) :
    (∃ last, (handed profile out exchanges).getLast? = some last ∧ last.breaksOff = true) ∨
      (out.write ((handed profile out exchanges).flatMap (transcript profile) ++
        exchange.shown profile)).overflowed = true := by
  induction exchanges generalizing out with
  | nil => simp at h
  | cons first later ih =>
      rw [handed] at h ⊢
      split at h
      next hover =>
          obtain ⟨rfl, -⟩ := List.cons_prefix_cons.mp h
          rw [if_pos hover]
          exact .inr hover
      next hroom =>
          rw [if_neg hroom]
          split at h
          next hbreak =>
              rw [if_pos hbreak]
              exact .inl ⟨first, rfl, hbreak⟩
          next hgo =>
              rw [if_neg hgo]
              rcases ih (List.cons_prefix_cons.mp h).2 with ⟨last, hlast, hbreak⟩ | hover
              · refine .inl ⟨last, ?_, hbreak⟩
                rw [List.getLast?_cons, hlast]
                rfl
              · rw [Sink.write_write, ← List.append_assoc, ← List.flatMap_cons] at hover
                exact .inr hover

end Exchange

namespace Dialogue

variable {profile : Profile} {out : Sink} {text : Text} {goal result : Dialogue}

theorem Telling.printer (h : Telling profile out text goal result)
    (hgoal : goal.printer = .ofProfile profile) : result.printer = .ofProfile profile := by
  cases hcut : (out.write text).overflowed with
  | true => exact (h.cutShort hcut).printer
  | false => rw [h.eq hcut, hgoal]

theorem Telling.told (h : Telling profile out text goal result)
    (hgoal : goal.out = out.write text) : ∃ told, result.out = out.write told := by
  cases hcut : (out.write text).overflowed with
  | true =>
      obtain ⟨told, -, -, hout⟩ := (h.cutShort hcut).told
      exact ⟨told, hout⟩
  | false => exact ⟨text, by rw [h.eq hcut, hgoal]⟩

/-- Of the notes that a dialogue hears, those jobs are handed over for which it has room,
each after the preview of its note. -/
theorem foldl_step_handed (profile : Profile) (out : Sink) (clock : Nat → Timestamp)
    (link : Link) (readings printed failed : Nat) (lines : List Text) :
    ∃ sent result told,
      sent = Exchange.handed profile out
        (Exchange.ofDrafts clock readings link (Segmentation.ofLines lines).drafts) ∧
      lines.foldl (Session.step clock) (asking profile out readings printed failed, link) =
        (result, link.record (sent.map (Exchange.entry profile))) ∧
      result.printer = .ofProfile profile ∧ result.out = out.write told ∧
      Exchange.ShownIn profile told sent := by
  induction lines using Segmentation.induction generalizing out readings printed failed link with
  | nil =>
      refine ⟨[], asking profile out readings printed failed, subjectPrompt, ?_, ?_, rfl, rfl,
        Exchange.shownIn_nil⟩
      · rw [Segmentation.ofLines, Exchange.ofDrafts_nil, Exchange.handed]
      · rw [List.map_nil, Link.record_nil, List.foldl_nil]
  | unfinished subject lines hopen =>
      obtain ⟨result, hfold, htelling⟩ := foldl_step_unfinished profile out clock link
        readings printed failed subject hopen
      obtain ⟨told, hout⟩ := htelling.told rfl
      refine ⟨[], result, told, ?_, ?_, htelling.printer rfl, hout,
        Exchange.shownIn_nil⟩
      · rw [Segmentation.ofLines_of_unfinished hopen, Exchange.ofDrafts_nil, Exchange.handed]
      · rw [hfold, htelling.settle (by simp), List.map_nil, Link.record_nil]
  | finished subject body later hfinished ih =>
      generalize hexchange : Exchange.ofDraft clock readings link ⟨subject, body⟩ = exchange
      have hlines : subject :: (body ++ later) = Draft.lines ⟨subject, body⟩ ++ later := rfl
      rw [Segmentation.ofLines_of_finished hfinished, hlines, List.foldl_append,
        Exchange.ofDrafts_cons _ _ (exchange.entry profile), hexchange, Exchange.handed]
      -- The exits of a dialogue: no room for the preview, an answer that breaks off, or neither.
      cases hcut : (out.write (exchange.shown profile)).overflowed with
      | true =>
          obtain ⟨result, hfold, hshort⟩ := foldl_step_overflowing printed failed
            hfinished hexchange hcut
          obtain ⟨told, -, -, hout⟩ := hshort.told
          refine ⟨[], result, told, if_pos rfl |>.symm, ?_, hshort.printer, hout,
            Exchange.shownIn_nil⟩
          rw [hfold, foldl_step_over hshort.stage, List.map_nil, Link.record_nil]
      | false =>
          rw [if_neg Bool.false_ne_true]
          cases hbreak : exchange.breaksOff with
          | true =>
              obtain ⟨cause, hfold⟩ := foldl_step_breaking printed failed hfinished hexchange
                hcut hbreak
              refine ⟨[exchange], ⟨.ofProfile profile, out.write (exchange.shown profile),
                readings + 1, .over (.io cause), printed, failed⟩, exchange.shown profile,
                if_pos rfl |>.symm, ?_, rfl, rfl, Exchange.shownIn_singleton⟩
              rw [hfold, foldl_step_over rfl]
              rfl
          | false =>
              rw [if_neg Bool.false_ne_true, foldl_step_regular printed failed hfinished
                hexchange hcut hbreak]
              obtain ⟨sent, result, told, hsent, hfold, hprinter, hout, hshown⟩ :=
                ih (out.write (exchange.transcript profile))
                  (link.record [exchange.entry profile]) (readings + 1)
                  (printed + if exchange.delivered then 1 else 0)
                  (failed + if !exchange.delivered then 1 else 0)
              refine ⟨exchange :: sent, result, exchange.transcript profile ++ told,
                congrArg _ hsent, ?_, hprinter, ?_, hshown.cons⟩
              · rw [hfold, Link.record_record]
                rfl
              · rw [hout, Sink.write_write]

end Dialogue

namespace Session

/-- What a session can be asked to do on an output of its own. -/
inductive Errand where
  /-- To hold a dialogue on what is heard of some arrivals. -/
  | dialogue (patience : Option Nat) (arrivals : List Arrival) (limit : Option Nat)
  /-- To print a single note. -/
  | slip (note : Note) (limit : Option Nat)

/-- The session after an errand, however it has ended. -/
def after (session : Session) : Errand → Session
  | .dialogue patience arrivals limit =>
      (session.run (.hear patience arrivals) (.ofLimit limit)).2.1
  | .slip note limit => (session.print note (.ofLimit limit)).2.1

/-- What a run over some lines leaves behind. -/
structure RunIsolated (profile : Profile) (session : Session) (lines : List Text)
    (later : Session) (out : Sink) (sent : List Exchange) : Prop where
  empty : later.printer = .ofProfile profile
  /-- The notes whose jobs were handed over are the first ones of the lines. -/
  first : sent <+: Exchange.ofLines session lines
  /-- The job of each of these notes was handed over once, as it is for the note alone. -/
  handed : later.link = session.link.record (sent.map (Exchange.entry profile))
  /-- The output has taken the whole preview of each of these notes. -/
  shown : ∀ earlier exchange, earlier ++ [exchange] <+: sent →
    Text.utf8 (earlier.flatMap (Exchange.transcript profile) ++ exchange.shown profile) <+:
      out.taken
  /-- The next note has not been shown, unless an answer has broken the run off. -/
  next : ∀ exchange, sent ++ [exchange] <+: Exchange.ofLines session lines →
    (∃ last, sent.getLast? = some last ∧ last.breaksOff = true) ∨
      ¬ Text.utf8 (sent.flatMap (Exchange.transcript profile) ++ exchange.shown profile) <+:
        out.taken

/-- What the printing of a single note leaves behind. -/
structure PrintIsolated (profile : Profile) (session : Session) (note : Note)
    (result : Except Fault Nat) (later : Session) (out : Sink) : Prop where
  empty : later.printer = .ofProfile profile
  /-- The job of the note was handed over once if the output has taken its preview. -/
  handed : later.link =
    if Text.utf8 (note.preview profile) <+: out.taken then
      session.link.record [(note.job profile, session.link.answer? .send session.link.requests)]
    else session.link
  /-- The size of the job is told if and only if it has been delivered. -/
  told : ∀ size, result = .ok size ↔
    later.link = session.link.record [(note.job profile, none)] ∧
      size = (note.job profile).length

variable {profile : Profile} {session : Session}

/-- A run hands over the exchanges for which its output has room. -/
theorem handed_isolated (hprinter : session.printer = .ofProfile profile) (input : Input)
    (limit : Option Nat) :
    RunIsolated profile session input.lines (session.run input (.ofLimit limit)).2.1
      (session.run input (.ofLimit limit)).2.2
      (Exchange.handed profile (.ofLimit limit) (Exchange.ofLines session input.lines)) := by
  obtain ⟨_, dialogue, told, rfl, hfold, hempty, hout, hshown⟩ :=
    Dialogue.foldl_step_handed profile (.ofLimit limit) session.clock session.link
      session.clockReadings 0 0 input.lines
  rw [← start_eq_asking hprinter] at hfold
  rw [run_of_foldl session input _ hfold]
  refine ⟨hempty, Exchange.handed_prefix, rfl, ?_, ?_⟩
  · intro earlier exchange h
    rw [hout]
    apply Sink.prefix_taken_of_fits (hshown earlier exchange h)
    exact Exchange.room_of_handed h
  · intro exchange h
    rcases Exchange.next_of_handed h with hlast | hover
    · exact .inl hlast
    · right
      intro htaken
      rw [hout] at htaken
      rw [Sink.fits_of_prefix_taken htaken] at hover
      contradiction

theorem run_isolated (hprinter : session.printer = .ofProfile profile) (input : Input)
    (limit : Option Nat) :
    ∃ result later out sent, session.run input (.ofLimit limit) = (result, later, out) ∧
      RunIsolated profile session input.lines later out sent :=
  ⟨_, _, _, _, rfl, handed_isolated hprinter input limit⟩

theorem print_isolated (hprinter : session.printer = .ofProfile profile) (note : Note)
    (limit : Option Nat) :
    ∃ result later out, session.print note (.ofLimit limit) = (result, later, out) ∧
      PrintIsolated profile session note result later out := by
  cases hcut : ((Sink.ofLimit limit).write (note.preview profile)).overflowed with
  | true =>
      obtain ⟨told, -, -, hprepare⟩ := Note.prepare_of_overflowed hcut
      refine ⟨.error (.io .outputFull), { session with printer := .ofProfile profile },
        (Sink.ofLimit limit).write told, ?_, rfl, ?_, ?_⟩
      · rw [print, hprinter, hprepare]
      · rw [if_neg]
        intro htaken
        rw [Sink.fits_of_prefix_taken htaken] at hcut
        contradiction
      · intro size
        -- A link that has been given a job is never the link from before.
        have hlink : session.link ≠ session.link.record [(note.job profile, none)] := by
          intro h
          rw [← @Link.record_nil session.link, Link.record_record,
            Link.record_inj] at h
          contradiction
        simp [hlink]
  | false =>
      have htaken := Sink.prefix_taken_of_fits List.prefix_rfl hcut
      generalize hanswer : session.link.answer? .send session.link.requests = answer
      refine ⟨answer.elim (.ok (note.job profile).length) .error,
        { session with
          printer := .ofProfile profile
          link := session.link.record [(note.job profile, answer)] },
        (Sink.ofLimit limit).write (note.preview profile), ?_, rfl, ?_, ?_⟩
      · rw [print, hprinter, Note.prepare_of_fits hcut]
        simp only [Link.send_eq, hanswer]
        cases answer with
        | none => rfl
        | some fault => rfl
      · rw [if_pos htaken, hanswer]
      · intro size
        rw [Link.record_inj]
        cases answer with
        | none => simp [eq_comm]
        | some fault => simp

theorem printer_after (hprinter : session.printer = .ofProfile profile) (errand : Errand) :
    (session.after errand).printer = .ofProfile profile := by
  cases errand with
  | dialogue patience arrivals limit =>
      obtain ⟨result, later, out, sent, hrun, hisolated⟩ :=
        run_isolated hprinter (.hear patience arrivals) limit
      rw [after, hrun]
      exact hisolated.empty
  | slip note limit =>
      obtain ⟨result, later, out, hprint, hisolated⟩ := print_isolated hprinter note limit
      rw [after, hprint]
      exact hisolated.empty

theorem printer_foldl_after (hprinter : session.printer = .ofProfile profile)
    (past : List Errand) : (past.foldl after session).printer = .ofProfile profile := by
  induction past generalizing session with
  | nil => exact hprinter
  | cons errand past ih => exact ih (printer_after hprinter errand)

/-- After any errands, a session has nothing buffered, and whatever it is asked to do next,
it hands over whole jobs of single notes, each once and after its note has been shown. -/
theorem jobs_isolated (profile : Profile) (link : Link) (clock : Nat → Timestamp)
    (past : List Errand) :
    let session := past.foldl after (.ofProfile profile link clock)
    session.printer = .ofProfile profile ∧
    (∀ patience arrivals limit, ∃ result later out sent,
      session.run (.hear patience arrivals) (.ofLimit limit) = (result, later, out) ∧
      RunIsolated profile session (Input.hear patience arrivals).lines later out sent) ∧
    ∀ note limit, ∃ result later out,
      session.print note (.ofLimit limit) = (result, later, out) ∧
      PrintIsolated profile session note result later out := by
  intro session
  have hprinter : session.printer = .ofProfile profile := printer_foldl_after rfl past
  refine ⟨hprinter, ?_, ?_⟩
  · intro patience arrivals limit
    exact run_isolated hprinter (.hear patience arrivals) limit
  · intro note limit
    exact print_isolated hprinter note limit

end Session

end ReceiptNotes
