import ReceiptNotes.CommandLine.Run
import ReceiptNotes.Proofs.Session.Transcription

/-! # A preview shows what would be printed

Previewing a file and typing it to a session are two ways to one note: the first one
takes the lines of the file as they are, the other one hears them behind a subject and
has to be told where the note ends. If the lines can be typed as a body (`Unbroken`),
both ways show the same text and make the same job
(`CommandLine.preview_shows_what_is_printed`).
-/

namespace ReceiptNotes

open Dialogue (sentNotice subjectPrompt)

namespace Session

variable {profile : Profile} {out : Sink} {clock : Nat → Timestamp} {link : Link} {readings : Nat}

/-- A run that ends when a subject is asked for has heard whole notes only. -/
theorem run_of_asking {lines : List Text} {told : Sink} {heard printed failed : Nat}
    {answered : Link} (hlimit : told.limit = none)
    (hfold : lines.foldl (step clock) (Dialogue.asking profile out readings 0 0, link) =
      (Dialogue.asking profile told heard printed failed, answered)) :
    run ⟨.ofProfile profile, link, clock, readings⟩ ⟨lines, .closed⟩ out =
      (.ok ⟨printed, failed, .inputClosed⟩, ⟨.ofProfile profile, answered, clock, heard⟩,
        told.write subjectPrompt) := by
  have hroom : (told.write subjectPrompt).overflowed = false :=
    Sink.overflowed_of_limit_none hlimit
  have hstage := Dialogue.stage_asking profile heard printed failed hroom
  have hrun := run_of_foldl ⟨.ofProfile profile, link, clock, readings⟩ ⟨lines, .closed⟩ out hfold
  rw [Dialogue.outcome_closed (by simp [hstage])] at hrun
  exact hrun

/-- A session without a limit on its output hears the lines of one note: it shows the note
and hands its job over, whatever the answer. -/
theorem run_draft {draft : Draft} {note : Note} (hlimit : out.limit = none)
    (hfinished : draft.Finished) (hnote : draft.note (clock readings) = note) :
    let answer := link.answer? .send link.requests
    ∃ result later told,
      run ⟨.ofProfile profile, link, clock, readings⟩ ⟨draft.lines, .closed⟩ out =
        (result, later, out.write (draft.opening profile ++ note.preview profile ++ told)) ∧
      later.link = link.record [(note.job profile, answer)] ∧
      (answer = none →
        result = .ok ⟨1, 0, .inputClosed⟩ ∧
        later.link.delivered = link.delivered ++ [note.job profile] ∧
        told = sentNotice (note.job profile).length ++ subjectPrompt) := by
  intro answer
  generalize hexchange : Exchange.ofDraft clock readings link draft = exchange
  have hshown : exchange.shown profile = draft.opening profile ++ note.preview profile := by
    rw [← hnote, ← hexchange]
    rfl
  have hjob : exchange.job profile = note.job profile := by
    rw [← hnote, ← hexchange]
    rfl
  have hanswer : exchange.answer = answer := by
    rw [← hexchange]
    rfl
  have hentry : exchange.entry profile = (note.job profile, answer) := by
    rw [Exchange.entry, hjob, hanswer]
  rw [← hshown, ← hentry]
  have hroom : (out.write (exchange.shown profile)).overflowed = false :=
    Sink.overflowed_of_limit_none hlimit
  cases hbreaks : exchange.breaksOff with
  | true =>
      obtain ⟨cause, hfold⟩ :=
        Dialogue.foldl_step_breaking 0 0 hfinished hexchange hroom hbreaks
      have hrun := run_of_foldl ⟨.ofProfile profile, link, clock, readings⟩
        ⟨draft.lines, .closed⟩ out hfold
      rw [← List.append_nil (exchange.shown profile)] at hrun
      refine ⟨_, _, _, hrun, rfl, fun hdelivered => ?_⟩
      obtain ⟨cause, hcause⟩ := Exchange.breaksOff_iff.mp hbreaks
      rw [hanswer, hdelivered] at hcause
      contradiction
  | false =>
      have hfold := Dialogue.foldl_step_regular 0 0 hfinished hexchange hroom hbreaks
      have htold : (out.write (exchange.transcript profile)).limit = none := hlimit
      have hrun := run_of_asking htold hfold
      rw [Sink.write_write, Exchange.transcript, List.append_assoc] at hrun
      refine ⟨_, _, _, hrun, rfl, fun hdelivered => ⟨?_, ?_, ?_⟩⟩
      · simp [Exchange.delivered, hanswer, hdelivered]
      · simp only [Link.delivered_record, hentry, hdelivered]
        rfl
      · rw [Exchange.notice, hanswer, hdelivered, hjob]

end Session

namespace CommandLine

variable {path content : Text} {closing : List Text} {layout : Layout} {around : Surroundings}
  {profile : Profile}

/-- What is typed to have a file printed: its name, its text with all lines ended, and the
lines that close the note. -/
def typedFile (path content : Text) (breaks : Nat → LineBreak) (closing : List Text) : Text :=
  fileStem path ++ LineBreak.feed.text ++ (Text.ended content ++ Text.typed breaks closing)

/-- The draft that comes of it. -/
def draftOfFile (path content : Text) (closing : List Text) : Draft where
  subject := fileStem path
  body := Text.lines content ++ closing

theorem lines_typedFile (breaks : Nat → LineBreak) (hstem : (fileStem path).Typable)
    (hreturn : content.getLast? ≠ some '\r') (hclosing : ∀ line ∈ closing, line.Typable) :
    Text.lines (typedFile path content breaks closing) =
      (draftOfFile path content closing).lines := by
  have hbehind : Text.lines (Text.ended content ++ Text.typed breaks closing) =
      Text.lines content ++ closing := by
    rw [Text.lines, Lines.split_append _ (Text.ended_ends content), ← Text.lines, ← Text.lines,
      Text.lines_ended hreturn, Text.lines_typed breaks hclosing]
  rw [typedFile, Text.lines_typed_line hstem, hbehind]
  rfl

/-- A preview shows the note of a file and the job that is made of it. -/
theorem preview_eq (hex : Bool) (hload : layout.load around = .ok profile)
    (hfile : around.file path = .ok (Text.utf8 content)) :
    let note := noteOfFile path around.now content
    note.prepare (.ofProfile profile) (.ofLimit none) =
        (some (note.job profile), .ofProfile profile,
          (Sink.ofLimit none).write (note.preview profile)) ∧
      preview path hex layout around =
        .ok (Text.utf8 (note.preview profile ++ jobText hex (note.job profile))) := by
  intro note
  have hroom : ((Sink.ofLimit none).write (note.preview profile)).overflowed = false :=
    Sink.overflowed_of_limit_none rfl
  have hprepare := Note.prepare_of_fits hroom
  refine ⟨hprepare, ?_⟩
  simp only [preview, hload, hfile, Except.mapError, Text.ofUtf8?_utf8, bind, Except.bind,
    hprepare, note]
  rw [Sink.write_write, Sink.taken_write_ofLimit]
  rfl

/-- The preview of a file and a session to which the file is typed show the same text of it
and make the same job. -/
theorem preview_shows_what_is_printed (hex : Bool) (source : Source) (breaks : Nat → LineBreak)
    (clock : Nat → Timestamp) (readings : Nat) (link : Link) (out : Sink)
    (hload : layout.load around = .ok profile)
    (hfile : around.file path = .ok (Text.utf8 content))
    (hreturn : content.getLast? ≠ some '\r') (hunbroken : Unbroken (Text.lines content))
    (hstem : (fileStem path).Typable) (hcloses : Closes (Text.lines content) closing)
    (hclosing : ∀ line ∈ closing, line.Typable)
    (hclock : clock readings = around.now) (hlimit : out.limit = none) :
    let note := noteOfFile path around.now content
    let typed := typedFile path content breaks closing
    let answer := link.answer? .send link.requests
    note.prepare (.ofProfile profile) (.ofLimit none) =
        (some (note.job profile), .ofProfile profile,
          (Sink.ofLimit none).write (note.preview profile)) ∧
      preview path hex layout around =
        .ok (Text.utf8 (note.preview profile ++ jobText hex (note.job profile))) ∧
      ∃ result later told,
        Session.run ⟨.ofProfile profile, link, clock, readings⟩
            (.hear none (Arrival.ofBytes source (Text.utf8 typed))) out =
          (result, later, out.write
            ((draftOfFile path content closing).opening profile ++ note.preview profile ++
              told)) ∧
        later.link = link.record [(note.job profile, answer)] ∧
        (answer = none →
          result = .ok ⟨1, 0, .inputClosed⟩ ∧
          later.link.delivered = link.delivered ++ [note.job profile] ∧
          told = sentNotice (note.job profile).length ++ subjectPrompt) := by
  intro note typed answer
  obtain ⟨hprepare, hpreview⟩ := preview_eq hex hload hfile
  have hfinished : (draftOfFile path content closing).Finished :=
    Draft.finished_of_closes _ hunbroken hcloses
  have hnote : (draftOfFile path content closing).note (clock readings) = note := by
    rw [hclock]
    exact Draft.note_of_closes _ hunbroken hcloses _
  have hheard : Input.hear none (Arrival.ofBytes source (Text.utf8 typed)) =
      ⟨(draftOfFile path content closing).lines, .closed⟩ := by
    rw [Input.hear_utf8, lines_typedFile breaks hstem hreturn hclosing]
  rw [hheard]
  exact ⟨hprepare, hpreview, Session.run_draft hlimit hfinished hnote⟩

/-- A file with both line breaks, a blank line inside, and none of them behind its last
line. -/
theorem preview_shows_what_is_printed_unended :
    let path := "lists/shop.txt".toList
    let content := "milk\r\n\n**eggs**".toList
    let around : Surroundings :=
      { file := fun asked => if asked = path then .ok (Text.utf8 content) else .error .missing
        complaint := fun _ => []
        device := fun _ => .memory true
        lookup := .offline
        network := fun _ => .memory true
        input := []
        now := default }
    let layout : Layout := ⟨none, none⟩
    let note : Note := ⟨"shop".toList, default, ["milk".toList, [], "**eggs**".toList]⟩
    let typed := "shop\nmilk\r\n\n**eggs**\n \r\n\r\n".toList
    (layout.load around = .ok .default ∧ around.file path = .ok (Text.utf8 content) ∧
      Unbroken (Text.lines content) ∧ Closes (Text.lines content) [[' '], []]) ∧
    preview path true layout around =
      .ok (Text.utf8 (note.preview .default ++ jobText true (note.job .default))) ∧
    ∃ later told,
      Session.run ⟨.ofProfile .default, .memory false, fun _ => default, 0⟩
          (.hear none (Arrival.ofBytes .blocking (Text.utf8 typed))) (.ofLimit none) =
        (.ok ⟨1, 0, .inputClosed⟩, later, (Sink.ofLimit none).write
          ((draftOfFile path content [[' '], []]).opening .default ++ note.preview .default ++
            told)) ∧
      later.link.delivered = [note.job .default] := by
  intro path content around layout note typed
  have hload : layout.load around = .ok .default := rfl
  have hfile : around.file path = .ok (Text.utf8 content) := rfl
  have hunbroken : Unbroken (Text.lines content) := ⟨by decide, by decide⟩
  have hcloses : Closes (Text.lines content) [[' '], []] := ⟨by decide, by decide⟩
  have hnote : noteOfFile path around.now content = note := by decide
  have htyped : typedFile path content (fun _ => .returnFeed) [[' '], []] = typed := by decide
  obtain ⟨-, hpreview, result, later, told, hrun, -, hanswer⟩ :=
    preview_shows_what_is_printed true .blocking (fun _ => .returnFeed) (fun _ => default) 0
      (.memory false) (.ofLimit none) hload hfile (by decide) hunbroken (by decide) hcloses
      (by decide) rfl rfl
  obtain ⟨rfl, hdelivered, -⟩ := hanswer rfl
  rw [hnote] at hpreview hrun hdelivered
  rw [htyped] at hrun
  exact ⟨⟨hload, hfile, hunbroken, hcloses⟩, hpreview, later, told, hrun, hdelivered⟩

end CommandLine

end ReceiptNotes
