import ReceiptNotes.Proofs.Session.Closing
import ReceiptNotes.Proofs.Session.Patience
import ReceiptNotes.Proofs.Session.Refinement
import ReceiptNotes.Proofs.Text.Lines
import ReceiptNotes.Proofs.Text.Utf8

/-! # Typed notes come out unchanged

A note that is to be printed as it is has to be typed so that nothing else is cut out
of what is typed: its body must not end before its last line, and none of its lines
may be taken for one that ends it. For such notes (`Manuscript`), typing and cutting
are inverse to each other (`Segmentation.ofLines_manuscripts`), and a session on the
bytes of what is typed prints each of them as it stands (`Session.prints_as_typed`).
-/

namespace ReceiptNotes

/-- Whole stretches of text arrive as their lines, none of which has to be waited for. -/
theorem Arrival.ofPieces_utf8 (source : Source) (pieces : List Text) :
    ofPieces source (pieces.map Text.utf8) =
      Input.present (pieces.map (Lines.chomp '\n' '\r')) := by
  induction pieces with
  | nil => rfl
  | cons piece pieces ih =>
      rw [List.map_cons, ofPieces, Text.Utf8.decode_utf8]
      simp only [ih]
      rfl

/-- Of a text in UTF-8, its lines are heard. -/
theorem Input.hear_utf8 (source : Source) (text : Text) :
    hear none (Arrival.ofBytes source (Text.utf8 text)) = ⟨Text.lines text, .closed⟩ := by
  have hheard := hear_ofLines_append ((Text.lines text).map fun line => (line, 0)) []
  rw [Arrival.ofBytes, Bytes.pieces_utf8, Arrival.ofPieces_utf8]
  rw [List.append_nil] at hheard
  refine hheard.trans ?_
  simp [hear, ofEnding, Function.comp_def]

/-- A note that can be typed line by line without being taken apart. -/
structure Manuscript where
  subject : Text
  body : List Text
  typable : ∀ line ∈ subject :: body, line.Typable
  /-- A body with lines ends in one that is not blank. -/
  filled : ∀ last ∈ body.getLast?, ¬ Text.isBlankLine last
  /-- Behind the first line, no two blank lines meet. -/
  apart : body.tail.IsChain fun first second =>
    ¬ (Text.isBlankLine first ∧ Text.isBlankLine second)

namespace Manuscript

/-- The empty lines that end a body of some lines: as many as it takes to make three. -/
def closing (manuscript : Manuscript) : List Text :=
  List.replicate (if manuscript.body = [] then 3 else 2) []

/-- The lines as they are typed. -/
def lines (manuscript : Manuscript) : List Text :=
  manuscript.subject :: (manuscript.body ++ manuscript.closing)

def draft (manuscript : Manuscript) : Draft where
  subject := manuscript.subject
  body := manuscript.body ++ manuscript.closing

def note (manuscript : Manuscript) (moment : Timestamp) : Note where
  subject := manuscript.subject
  moment
  body := manuscript.body

theorem typable_of_mem_lines {manuscript : Manuscript} {line : Text}
    (hline : line ∈ manuscript.lines) : line.Typable := by
  rw [lines, ← List.cons_append, List.mem_append] at hline
  rcases hline with htyped | hclosing
  · exact manuscript.typable line htyped
  · obtain rfl := List.eq_of_mem_replicate hclosing
    decide

variable (manuscript : Manuscript)

theorem unbroken : Unbroken manuscript.body :=
  ⟨manuscript.filled, manuscript.apart⟩

theorem closes : Closes manuscript.body manuscript.closing := by
  constructor
  · intro line hline
    obtain rfl := List.eq_of_mem_replicate hline
    rfl
  · exact List.length_replicate

theorem finished_draft : manuscript.draft.Finished :=
  Draft.finished_of_closes manuscript.subject manuscript.unbroken manuscript.closes

theorem note_draft (moment : Timestamp) :
    manuscript.draft.note moment = manuscript.note moment :=
  Draft.note_of_closes manuscript.subject manuscript.unbroken manuscript.closes moment

end Manuscript

/-- Typed manuscripts are heard as their lines. -/
theorem Input.hear_manuscripts (source : Source) (breaks : Nat → LineBreak)
    (manuscripts : List Manuscript) :
    hear none (Arrival.ofBytes source
      (Text.utf8 (Text.typed breaks (manuscripts.flatMap Manuscript.lines)))) =
      ⟨manuscripts.flatMap Manuscript.lines, .closed⟩ := by
  rw [hear_utf8, Text.lines_typed]
  intro line hline
  obtain ⟨manuscript, -, hmem⟩ := List.mem_flatMap.mp hline
  exact Manuscript.typable_of_mem_lines hmem

/-- Cutting the lines of manuscripts gives the manuscripts again. -/
theorem Segmentation.ofLines_manuscripts (manuscripts : List Manuscript) :
    ofLines (manuscripts.flatMap Manuscript.lines) = ⟨manuscripts.map Manuscript.draft, []⟩ := by
  induction manuscripts with
  | nil => rw [List.flatMap_nil, ofLines, List.map_nil]
  | cons manuscript manuscripts ih =>
      have hlines : (manuscript :: manuscripts).flatMap Manuscript.lines =
          manuscript.draft.subject ::
            (manuscript.draft.body ++ manuscripts.flatMap Manuscript.lines) := rfl
      have hfinished : Draft.Finished ⟨manuscript.draft.subject, manuscript.draft.body⟩ :=
        manuscript.finished_draft
      rw [hlines, ofLines_of_finished hfinished, ih]
      rfl

namespace Exchange

variable (clock : Nat → Timestamp) (readings : Nat) {link : Link}

/-- The jobs of exchanges on manuscripts are those of the notes they were written for. -/
theorem map_job_manuscripts (profile : Profile) (manuscripts : List Manuscript) :
    (ofDrafts clock readings link (manuscripts.map Manuscript.draft)).map (job profile) =
      manuscripts.mapIdx fun i manuscript =>
        (manuscript.note (clock (readings + i))).job profile := by
  apply List.ext_getElem?
  intro i
  simp only [ofDrafts, List.getElem?_map, List.getElem?_mapIdx, Option.map_map]
  cases manuscripts[i]? with
  | none => simp only [Option.map_none]
  | some manuscript =>
      simp only [Option.map_some, Function.comp, job, note, Manuscript.note_draft]

theorem delivered_of_accepts (haccepts : ∀ asked, link.answer? .send asked = none)
    (drafts : List Draft) : ∀ exchange ∈ ofDrafts clock readings link drafts,
      exchange.delivered = true := by
  intro exchange hexchange
  obtain ⟨i, -, rfl⟩ := List.mem_mapIdx.mp hexchange
  simp only [delivered, haccepts, Option.isNone_none]

/-- If every exchange delivers its job, none fails. -/
theorem counts_of_delivered {exchanges : List Exchange}
    (hdelivered : ∀ exchange ∈ exchanges, exchange.delivered = true) :
    exchanges.countP delivered = exchanges.length ∧ exchanges.countP (!·.delivered) = 0 := by
  refine ⟨List.countP_eq_length.mpr hdelivered, List.countP_eq_zero.mpr ?_⟩
  intro exchange hexchange
  simp [hdelivered exchange hexchange]

end Exchange

namespace Session

variable (profile : Profile) (link : Link) (clock : Nat → Timestamp) (readings : Nat)

/-- A session that hears the bytes of typed manuscripts over a link that takes every job
delivers one job for each manuscript, which is that of the note with its very subject and
body, and nothing else. -/
theorem prints_as_typed (source : Source) (breaks : Nat → LineBreak)
    (manuscripts : List Manuscript) (haccepts : ∀ asked, link.answer? .send asked = none) :
    let session : Session := ⟨.ofProfile profile, link, clock, readings⟩
    let bytes := Text.utf8 (Text.typed breaks (manuscripts.flatMap Manuscript.lines))
    ∃ later out,
      session.run (.hear none (Arrival.ofBytes source bytes)) (.ofLimit none) =
        (.ok ⟨manuscripts.length, 0, .inputClosed⟩, later, out) ∧
      later.link.delivered = link.delivered ++ manuscripts.mapIdx fun i manuscript =>
        (manuscript.note (clock (readings + i))).job profile := by
  intro session bytes
  have hheard := Input.hear_manuscripts source breaks manuscripts
  have hanswers : ∀ asked cause, link.answer? .send asked ≠ some (.io cause) := by
    intro asked cause
    simp [haccepts asked]
  obtain ⟨stage, hstage, hfold⟩ :=
    @Dialogue.foldl_step_lines profile (.ofLimit none) link clock readings 0 0 rfl hanswers
      (manuscripts.flatMap Manuscript.lines)
  have hjobs := @Exchange.map_job_manuscripts clock readings link profile manuscripts
  have hdelivered := Exchange.delivered_of_accepts clock readings haccepts
    (manuscripts.map Manuscript.draft)
  have hlength : (Exchange.ofDrafts clock readings link
      (manuscripts.map Manuscript.draft)).length = manuscripts.length := by
    simp [Exchange.ofDrafts]
  rw [Segmentation.ofLines_manuscripts] at hfold
  generalize Exchange.ofDrafts clock readings link (manuscripts.map Manuscript.draft) =
    exchanges at hfold hjobs hdelivered hlength
  obtain ⟨hprinted, hfailed⟩ := Exchange.counts_of_delivered hdelivered
  rw [hprinted, hfailed, hlength, Nat.zero_add] at hfold
  have hrun := run_of_foldl session ⟨_, .closed⟩ (.ofLimit none) hfold
  rw [Dialogue.outcome_closed hstage] at hrun
  rw [hheard]
  refine ⟨_, _, hrun, ?_⟩
  rw [Link.delivered_record, Exchange.map_filter_entry, List.filter_eq_self.mpr hdelivered,
    hjobs]

/-- A note whose body starts with two blank lines and has another one inside, and a note
without a body, typed with both line breaks in turn. -/
theorem prints_as_typed_early_blanks :
    let typed := "shop\r\n\n\r\n**milk**\n \r\neggs\n\r\n\n\r\n\n\r\n\n".toList
    (∀ asked, (Link.memory false).answer? .send asked = none) ∧
    ∃ later out,
      run ⟨.ofProfile .default, .memory false, fun _ => default, 0⟩
          (.hear none (Arrival.ofBytes .stream (Text.utf8 typed))) (.ofLimit none) =
        (.ok ⟨2, 0, .inputClosed⟩, later, out) ∧
      later.link.delivered =
        [Note.job .default ⟨"shop".toList, default,
            [[], [], "**milk**".toList, " ".toList, "eggs".toList]⟩,
          Note.job .default ⟨[], default, []⟩] := by
  intro typed
  let manuscripts : List Manuscript :=
    [⟨"shop".toList, [[], [], "**milk**".toList, " ".toList, "eggs".toList], by decide,
        by decide, by decide⟩,
      ⟨[], [], by decide, by decide, by decide⟩]
  let breaks : Nat → LineBreak := fun i => if i % 2 = 0 then .returnFeed else .feed
  have haccepts : ∀ asked, (Link.memory false).answer? .send asked = none := fun _ => rfl
  have htyped : Text.typed breaks (manuscripts.flatMap Manuscript.lines) = typed := by decide
  have hprints := prints_as_typed .default (.memory false) (fun _ => default) 0 .stream breaks
    manuscripts haccepts
  rw [htyped] at hprints
  exact ⟨haccepts, hprints⟩

end Session

end ReceiptNotes
