import ReceiptNotes.Proofs.Session.Isolation

/-! # An output without room truncates a run

A run on an output with a limit is compared with the run on an output without one.
Step by step, either the two are in the same state, or the limited one is over and has
offered a front part of what the other one has (`Truncation`). So the limited output
takes the front of the whole transcript, and a note is sent exactly if its preview
ends inside the limit (`output_limit_truncates`).
-/

namespace ReceiptNotes

open Dialogue (Telling asking)

namespace Sink

/-- The same output with a limit. -/
def within (limit : Nat) (out : Sink) : Sink :=
  { out with limit := some limit }

end Sink

/-! Whatever happens to a dialogue, its output keeps what it has been offered. -/

theorem Command.offered_prefix_render (columns : Nat) (commands : List Command)
    (printer : Printer) (out : Sink) :
    out.offered.toList <+: (render columns commands printer out).2.offered.toList := by
  induction commands generalizing printer out with
  | nil => exact List.prefix_rfl
  | cons command commands ih =>
      have hwritten := out.offered_prefix_write (command.preview columns)
      rw [render]
      split
      · exact hwritten
      · exact hwritten.trans (ih _ _)

theorem Note.offered_prefix_prepare (note : Note) (printer : Printer) (out : Sink) :
    out.offered.toList <+: (note.prepare printer out).2.2.offered.toList := by
  have hrender :=
    Command.offered_prefix_render printer.profile.width note.commands printer out
  simp only [prepare]
  split
  · exact hrender
  · exact hrender

namespace Dialogue

variable (dialogue : Dialogue)

theorem offered_prefix_tell (text : Text) (stage : Stage) :
    dialogue.out.offered.toList <+: (dialogue.tell text stage).out.offered.toList :=
  dialogue.out.offered_prefix_write text

theorem offered_prefix_present (note : Note) :
    dialogue.out.offered.toList <+: (dialogue.present note).out.offered.toList :=
  note.offered_prefix_prepare dialogue.printer dialogue.out

theorem offered_prefix_hear (now : Timestamp) (line : Text) :
    dialogue.out.offered.toList <+: (dialogue.hear now line).out.offered.toList := by
  unfold hear
  split
  · exact dialogue.offered_prefix_tell _ _
  · simp only
    split
    · have hclosed := dialogue.offered_prefix_tell (indented dialogue.rule ++ ['\n']) dialogue.stage
      split
      · exact hclosed
      · exact hclosed.trans (offered_prefix_present _ _)
    · exact dialogue.offered_prefix_tell _ _
  · exact List.prefix_rfl
  · exact List.prefix_rfl

theorem offered_prefix_settle (link : Link) :
    dialogue.out.offered.toList <+: (dialogue.settle link).1.out.offered.toList := by
  unfold settle
  split
  next job hstage =>
      simp only [acknowledge, hstage]
      split
      · exact dialogue.out.offered_prefix_write _
      · exact List.prefix_rfl
      · exact dialogue.out.offered_prefix_write _
      · exact List.prefix_rfl
  · exact List.prefix_rfl

/-- The same dialogue on an output with a limit. -/
def within (limit : Nat) (dialogue : Dialogue) : Dialogue :=
  { dialogue with out := dialogue.out.within limit }

end Dialogue

/-- What a dialogue on an output with a limit and the link it uses are to the same on an
output without one. -/
inductive Truncation (profile : Profile) (limit : Nat) :
    (cut whole : Dialogue × Link) → Prop
  /-- All that has been offered fits: nothing differs but the limit. -/
  | same (dialogue : Dialogue) (link : Link) (printer : dialogue.printer = .ofProfile profile)
      (unlimited : dialogue.out.limit = none)
      (fits : (dialogue.out.within limit).overflowed = false) :
      Truncation profile limit (dialogue.within limit, link) (dialogue, link)
  /-- The output has overflowed, and the dialogue is over. -/
  | short {cut whole : Dialogue} {cutLink wholeLink : Link}
      (stage : cut.stage = .over (.io .outputFull)) (limited : cut.out.limit = some limit)
      (overflowed : cut.out.overflowed = true)
      (offered : cut.out.offered.toList <+: whole.out.offered.toList) :
      Truncation profile limit (cut, cutLink) (whole, wholeLink)

namespace Dialogue

variable {profile : Profile} {limit : Nat} {out : Sink} {text : Text} {goal cut whole : Dialogue}

/-- The same text told with and without a limit. -/
theorem Telling.truncation (link : Link)
    (hwhole : Telling profile out text goal whole)
    (hcut : Telling profile (out.within limit) text (goal.within limit) cut)
    (hunlimited : out.limit = none) (hout : goal.out = out.write text)
    (hprinter : goal.printer = .ofProfile profile) :
    Truncation profile limit (cut, link) (whole, link) := by
  obtain rfl : whole = goal := hwhole.eq (Sink.overflowed_of_limit_none hunlimited)
  cases hover : ((out.within limit).write text).overflowed with
  | false =>
      obtain rfl := hcut.eq hover
      refine .same _ link hprinter ?_ ?_
      · rw [hout]
        exact hunlimited
      · rw [hout]
        exact hover
  | true =>
      have hshort := hcut.cutShort hover
      obtain ⟨told, hfront, htold, hcutOut⟩ := hshort.told
      refine .short hshort.stage ?_ ?_ ?_
      · rw [hcutOut]
        rfl
      · rw [hcutOut]
        exact htold
      · rw [hcutOut, hout]
        exact out.offered_write_mono hfront

section Same

variable (dialogue : Dialogue) (link : Link) (hprinter : dialogue.printer = .ofProfile profile)
  (hunlimited : dialogue.out.limit = none)

include hprinter hunlimited

theorem truncation_tell (text : Text) (stage : Stage) :
    Truncation profile limit ((dialogue.within limit).tell text stage, link)
      (dialogue.tell text stage, link) :=
  (telling_tell dialogue text stage hprinter).truncation link
    (telling_tell (dialogue.within limit) text stage hprinter) hunlimited rfl hprinter

theorem truncation_present (note : Note) :
    Truncation profile limit ((dialogue.within limit).present note, link)
      (dialogue.present note, link) :=
  (telling_present dialogue note hprinter).truncation link
    (telling_present (dialogue.within limit) note hprinter) hunlimited rfl hprinter

variable (hfits : (dialogue.out.within limit).overflowed = false)

include hfits

theorem truncation_hear (now : Timestamp) (line : Text) :
    Truncation profile limit ((dialogue.within limit).hear now line, link)
      (dialogue.hear now line, link) := by
  have hcutStage : (dialogue.within limit).stage = dialogue.stage := rfl
  cases hstage : dialogue.stage with
  | subject =>
      rw [hear, hear, hcutStage, hstage]
      exact truncation_tell dialogue link hprinter hunlimited _ _
  | body subject captured =>
      rw [hear, hear, hcutStage, hstage]
      simp only
      split
      · -- The rule under the lines is told first, and then the note is presented.
        have hclosed : Truncation profile limit
            ((dialogue.within limit).tell (indented dialogue.rule ++ ['\n'])
              (.body subject captured), link)
            (dialogue.tell (indented dialogue.rule ++ ['\n']) (.body subject captured), link) :=
          truncation_tell dialogue link hprinter hunlimited _ _
        have hroom : (dialogue.tell (indented dialogue.rule ++ ['\n'])
            (.body subject captured)).out.overflowed = false :=
          Sink.overflowed_of_limit_none hunlimited
        have hrule : (dialogue.within limit).rule = dialogue.rule := rfl
        rw [hrule]
        generalize (dialogue.within limit).tell (indented dialogue.rule ++ ['\n'])
          (.body subject captured) = cutClosed at hclosed ⊢
        generalize dialogue.tell (indented dialogue.rule ++ ['\n'])
          (.body subject captured) = wholeClosed at hclosed hroom ⊢
        cases hclosed with
        | same _ _ hclosedPrinter hclosedUnlimited hclosedFits =>
            rw [if_neg (by simpa [within] using hclosedFits), if_neg (by simp [hroom])]
            exact truncation_present wholeClosed link hclosedPrinter hclosedUnlimited _
        | short hover hlimited hoverflowed hoffered =>
            rw [if_pos hoverflowed, if_neg (by simp [hroom])]
            exact .short hover hlimited hoverflowed (hoffered.trans (offered_prefix_present _ _))
      · exact truncation_tell dialogue link hprinter hunlimited _ _
  | _ =>
      rw [hear, hear, hcutStage, hstage]
      exact .same dialogue link hprinter hunlimited hfits

end Same

/-- Both dialogues are given the same answer to the same job, unless the limited one is
over. -/
theorem truncation_settle {cut whole : Dialogue × Link} (h : Truncation profile limit cut whole) :
    Truncation profile limit (cut.1.settle cut.2) (whole.1.settle whole.2) := by
  cases h with
  | @short cut whole cutLink wholeLink hover hlimited hoverflowed hoffered =>
      have hstays : cut.settle cutLink = (cut, cutLink) := by rw [settle, hover]
      rw [hstays]
      exact .short hover hlimited hoverflowed (hoffered.trans (offered_prefix_settle _ _))
  | same dialogue link hprinter hunlimited hfits =>
      have hcutStage : (dialogue.within limit).stage = dialogue.stage := rfl
      simp only [settle, hcutStage]
      split
      next job hstage =>
          simp only [acknowledge, hcutStage, hstage]
          cases (link.send job).1 with
          | none =>
              exact truncation_tell { dialogue with printed := dialogue.printed + 1 }
                (link.send job).2 hprinter hunlimited _ _
          | some fault =>
              cases fault with
              | io cause =>
                  exact .same { dialogue with stage := .over (.io cause) } (link.send job).2
                    hprinter hunlimited hfits
              | transport cause | notConnected cause | configuration cause =>
                  exact truncation_tell { dialogue with failed := dialogue.failed + 1 }
                    (link.send job).2 hprinter hunlimited _ _
      · exact .same dialogue link hprinter hunlimited hfits

theorem truncation_step (clock : Nat → Timestamp) {cut whole : Dialogue × Link}
    (h : Truncation profile limit cut whole) (line : Text) :
    Truncation profile limit (Session.step clock cut line) (Session.step clock whole line) := by
  have hheard : Truncation profile limit
      (cut.1.hear (clock cut.1.clockReadings) line, cut.2)
      (whole.1.hear (clock whole.1.clockReadings) line, whole.2) := by
    cases h with
    | @short cut whole cutLink wholeLink hover hlimited hoverflowed hoffered =>
        have hdeaf : ∀ now, cut.hear now line = cut := fun now => by rw [hear, hover]
        rw [hdeaf]
        exact .short hover hlimited hoverflowed (hoffered.trans (offered_prefix_hear _ _ _))
    | same dialogue link hprinter hunlimited hfits =>
        exact truncation_hear dialogue link hprinter hunlimited hfits _ line
  exact truncation_settle hheard

theorem truncation_foldl_step (clock : Nat → Timestamp) {cut whole : Dialogue × Link}
    (h : Truncation profile limit cut whole) (lines : List Text) :
    Truncation profile limit (lines.foldl (Session.step clock) cut)
      (lines.foldl (Session.step clock) whole) := by
  induction lines generalizing cut whole with
  | nil => exact h
  | cons line lines ih => exact ih (truncation_step clock h line)

end Dialogue

namespace Exchange

variable {profile : Profile} {exchange : Exchange} {earlier exchanges : List Exchange}

/-- A job that is handed over on some output is handed over on any output that has room for
the preview of its note. -/
theorem handed_of_room {out roomy : Sink}
    (h : earlier ++ [exchange] <+: handed profile out exchanges)
    (hroom : (roomy.write (earlier.flatMap (transcript profile) ++
      exchange.shown profile)).overflowed = false) :
    earlier ++ [exchange] <+: handed profile roomy exchanges := by
  induction exchanges generalizing out roomy earlier with
  | nil => exact h
  | cons first later ih =>
      rw [handed] at h
      split at h
      · simp at h
      · cases earlier with
        | nil =>
            obtain rfl : exchange = first := by
              split at h
              · exact (List.cons_prefix_cons.mp h).1
              · exact (List.cons_prefix_cons.mp h).1
            rw [List.flatMap_nil, List.nil_append] at hroom
            rw [handed, hroom, if_neg Bool.false_ne_true]
            split
            · exact List.prefix_rfl
            · exact (List.prefix_cons_inj exchange).mpr List.nil_prefix
        | cons second earlier =>
            split at h
            · simp at h
            next hregular =>
                obtain ⟨rfl, hlater⟩ := List.cons_prefix_cons.mp h
                have hfirst : second.shown profile <+:
                    (second :: earlier).flatMap (transcript profile) ++ exchange.shown profile := by
                  rw [List.flatMap_cons, transcript, List.append_assoc, List.append_assoc]
                  exact List.prefix_append _ _
                rw [handed, Sink.fits_of_prefix hfirst hroom, if_neg Bool.false_ne_true,
                  if_neg hregular]
                refine (List.prefix_cons_inj second).mpr (ih hlater ?_)
                rwa [Sink.write_write, ← List.append_assoc, ← List.flatMap_cons]

theorem handed_prefix_unlimited {out unlimited : Sink} (h : unlimited.limit = none) :
    handed profile out exchanges <+: handed profile unlimited exchanges := by
  rcases List.eq_nil_or_concat (handed profile out exchanges) with hnil | ⟨earlier, last, hlast⟩
  · rw [hnil]
    exact List.nil_prefix
  · rw [List.concat_eq_append] at hlast
    rw [hlast]
    exact handed_of_room (by rw [hlast]) (Sink.overflowed_of_limit_none h)

end Exchange

namespace Truncation

variable {profile : Profile} {limit : Nat} {cut whole : Dialogue × Link}

/-- The limited output takes the front of what the other one takes. -/
theorem taken (h : Truncation profile limit cut whole) (hunlimited : whole.1.out.limit = none) :
    cut.1.out.taken = whole.1.out.taken.take limit := by
  cases h with
  | same dialogue link hprinter _ hfits =>
      rw [Sink.taken, Sink.taken, hunlimited]
      rfl
  | @short cut whole cutLink wholeLink hover hlimited hoverflowed hoffered =>
      obtain ⟨behind, hbehind⟩ := hoffered
      have hlong : limit < cut.out.offered.size := by
        simpa [Sink.overflowed, hlimited] using hoverflowed
      rw [Sink.taken, Sink.taken, hlimited, hunlimited]
      simp only [← hbehind]
      rw [List.take_append_of_le_length (by simpa using hlong.le)]

/-- If all that is offered fits, nothing differs but the limit. -/
theorem eq_of_fits (h : Truncation profile limit cut whole)
    (hunlimited : whole.1.out.limit = none) (hfits : whole.1.out.taken.length ≤ limit) :
    cut = (whole.1.within limit, whole.2) := by
  cases h with
  | same => rfl
  | @short cut whole cutLink wholeLink hover hlimited hoverflowed hoffered =>
      have hlong : limit < cut.out.offered.size := by
        simpa [Sink.overflowed, hlimited] using hoverflowed
      have hle := hoffered.length_le
      rw [Sink.taken, hunlimited] at hfits
      simp only [Array.length_toList] at hle hfits
      omega

theorem stage_of_overflowed (h : Truncation profile limit cut whole)
    (hover : limit < whole.1.out.taken.length) : cut.1.stage = .over (.io .outputFull) := by
  cases h with
  | same dialogue link hprinter hunlimited hfits =>
      have hshort : dialogue.out.offered.size ≤ limit := Nat.not_lt.mp (of_decide_eq_false hfits)
      rw [Sink.taken, hunlimited, Array.length_toList] at hover
      exact absurd hshort (Nat.not_le_of_lt hover)
  | short hstage => exact hstage

end Truncation

namespace Session

/-- What a run on an output that takes `limit` bytes is to the same run on an output without a
limit, which hands over the exchanges `shown`. -/
structure TruncatedRun (profile : Profile) (session : Session) (lines : List Text) (limit : Nat)
    (cut whole : Except Fault Summary × Session × Sink) (shown : List Exchange) : Prop where
  /-- The output takes the front of the whole transcript. -/
  taken : cut.2.2.taken = whole.2.2.taken.take limit
  /-- If the whole transcript fits, there is no other difference. -/
  same : whole.2.2.taken.length ≤ limit → cut.1 = whole.1 ∧ cut.2.1 = whole.2.1
  /-- If it does not, the run ends with the fault of the output. -/
  full : limit < whole.2.2.taken.length → cut.1 = .error (.io .outputFull)
  /-- Without a limit, each note is shown and handed over, up to a fault that breaks off. -/
  isolated : RunIsolated profile session lines whole.2.1 whole.2.2 shown
  /-- With the limit, those of the notes are handed over whose preview ends inside it. -/
  handed : ∃ sent, cut.2.1.link = session.link.record (sent.map (Exchange.entry profile)) ∧
    sent <+: shown ∧
    ∀ earlier exchange, earlier ++ [exchange] <+: shown →
      (earlier ++ [exchange] <+: sent ↔
        (Text.utf8 (earlier.flatMap (Exchange.transcript profile) ++
          exchange.shown profile)).length ≤ limit)

/-- A failing output only truncates a run: for whatever is heard of the operator, the output
takes a front part of the transcript, and a note is handed over exactly if its whole preview
is in that part. -/
theorem output_limit_truncates (profile : Profile) (link : Link) (clock : Nat → Timestamp)
    (readings : Nat) (input : Input) (limit : Nat) :
    let session : Session := ⟨.ofProfile profile, link, clock, readings⟩
    ∃ shown, TruncatedRun profile session input.lines limit
      (session.run input (.ofLimit (some limit))) (session.run input (.ofLimit none)) shown := by
  intro session
  have htruncation : Truncation profile limit
      (input.lines.foldl (step clock)
        (.start session.printer (.ofLimit (some limit)) readings, link))
      (input.lines.foldl (step clock) (.start session.printer (.ofLimit none) readings, link)) :=
    Dialogue.truncation_foldl_step clock
      (Dialogue.truncation_tell ⟨.ofProfile profile, .ofLimit none, readings, .subject, 0, 0⟩ link
        rfl rfl Dialogue.subjectPrompt .subject) input.lines
  have hunlimited : (input.lines.foldl (step clock)
      (.start session.printer (.ofLimit none) readings, link)).1.out.limit = none := by
    obtain ⟨_, result, told, -, hfold, -, hout, -⟩ :=
      Dialogue.foldl_step_handed profile (.ofLimit none) clock link readings 0 0 input.lines
    have hstart : asking profile (.ofLimit none) readings 0 0 =
      .start session.printer (.ofLimit none) readings := rfl
    rw [← hstart, hfold, hout]
    rfl
  have hprinter : session.printer = .ofProfile profile := rfl
  have hcut := handed_isolated hprinter input (some limit)
  refine ⟨_, ?_, ?_, ?_, handed_isolated hprinter input none, _, hcut.handed, ?_, ?_⟩
  · exact htruncation.taken hunlimited
  · intro hfits
    have hsame := htruncation.eq_of_fits hunlimited hfits
    simp only [run, session] at hsame ⊢
    rw [hsame]
    exact ⟨rfl, rfl⟩
  · intro hover
    have hstage := htruncation.stage_of_overflowed hover
    simp only [run, Dialogue.outcome, session] at hstage ⊢
    rw [hstage]
  · exact Exchange.handed_prefix_unlimited rfl
  · intro earlier exchange hshown
    rw [Text.length_utf8]
    constructor
    · intro hsent
      exact (Sink.fits_iff (some limit)).mp (Exchange.room_of_handed hsent) limit rfl
    · intro hroom
      exact Exchange.handed_of_room hshown ((Sink.fits_iff (some limit)).mpr (by simpa using hroom))

end Session

end ReceiptNotes
