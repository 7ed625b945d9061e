import Mathlib.Data.List.Basic
import ReceiptNotes.Proofs.Command.Performing

/-! # Styles do not leak

A printer has a style, which operations switch on and off and which lasts until it is
switched again. Every command leaves the plain style as it found it, and prints its
texts in styles of its own (`Command.replay_operations`, `Command.texts_operations`).
So the style of a text depends on its command alone, whatever is performed before and
behind it, and wherever programs are finished (`Command.styles_kept`).
-/

namespace ReceiptNotes

/-- How a printer prints text. -/
structure Style where
  bold : Bool
  underlined : Bool
  alignment : Alignment
  /-- Multiples of the character height beyond the first. -/
  height : UInt8
  /-- Multiples of the character width beyond the first. -/
  width : UInt8
  deriving DecidableEq, Repr

namespace Style

/-- The style of a printer that has been reset. -/
def plain : Style := ⟨false, false, .left, 0, 0⟩

def after (style : Style) : Operation → Style
  | .reset => plain
  | .setBold on => { style with bold := on }
  | .setUnderline on => { style with underlined := on }
  | .setAlign alignment => { style with alignment }
  | .setSize height width => { style with height, width }
  | .cut | .text _ | .newline | .qrCode .. | .pdf417 .. | .barcode .. => style

/-- The style behind a program. -/
def replay (style : Style) (program : Program) : Style :=
  program.foldl after style

/-- The texts of a program, each with the style in which it is printed. -/
def texts (style : Style) : Program → List (Text × Style)
  | [] => []
  | .text line :: later => (line, style) :: texts style later
  | operation :: later => texts (style.after operation) later

theorem replay_append (style : Style) (first second : Program) :
    style.replay (first ++ second) = (style.replay first).replay second :=
  List.foldl_append

theorem texts_append (style : Style) (first second : Program) :
    style.texts (first ++ second) =
      style.texts first ++ (style.replay first).texts second := by
  induction first generalizing style with
  | nil => rfl
  | cons operation first ih =>
      cases operation with
      | text line => exact congrArg (_ :: ·) (ih style)
      | _ => exact ih _

end Style

open Style (plain)

namespace Command

/-- The texts of a command and their styles: data of a command for text in a style are in
that style and in no other way different, the label of a link is bold, and all else is
plain. -/
def texts (profile : Profile) : Command → List (Text × Style)
  | bold data => [(data, { plain with bold := true })]
  | underline data => [(data, { plain with underlined := true })]
  | title data => [(data, { plain with height := 1, width := 1 })]
  | centered data => [(data, { plain with alignment := .center })]
  | link label url => [(label, { plain with bold := true }), (url, plain)]
  | append data | printLine data => [(data, plain)]
  | rule _ => [(profile.rule, plain)]
  | leftRight left right => [(Text.justify left right profile.width, plain)]
  | qrCode data => [(profile.rule, plain), (data, plain), (profile.rule, plain)]
  | execute | newLine | cut | noop | code128 _ | code39 _ | pdf417 _ => []

variable (profile : Profile) (command : Command)

/-- A command switches off again what it has switched on. -/
theorem replay_operations : plain.replay (command.operations profile) = plain := by
  cases command with
  | rule breakLine => cases breakLine <;> rfl
  | _ => rfl

theorem texts_operations : plain.texts (command.operations profile) = command.texts profile := by
  cases command with
  | rule breakLine => cases breakLine <;> rfl
  | _ => rfl

end Command

/-- A program that begins with a reset, so that it prints alike in whatever style the
printer is, and that ends in the plain style. -/
def Program.SelfContained (program : Program) : Prop :=
  program.head? = some .reset ∧ ∀ style : Style, style.replay program = plain

namespace Printer

/-- What has been recorded since a program was last finished ends in the plain style. -/
def Settled (printer : Printer) : Prop :=
  plain.replay printer.recorded.toList = plain

/-- The texts that are buffered and their styles, those of finished programs first. -/
def texts (printer : Printer) : List (Text × Style) :=
  printer.finished.toList.flatMap plain.texts ++ plain.texts printer.recorded.toList

theorem settled_ofProfile (profile : Profile) : (ofProfile profile).Settled := rfl

theorem settled_finish (printer : Printer) : printer.finish.Settled := by
  rw [Settled, recorded_finish]
  rfl

/-- Finishing a program moves its texts and changes no style. -/
theorem texts_finish (printer : Printer) : printer.finish.texts = printer.texts := by
  rw [texts, finished_finish, recorded_finish, texts]
  by_cases h : printer.recorded = #[]
  · simp [h]
  · simp [h, Style.texts, Style.after]

variable {printer : Printer}

theorem Settled.record (h : printer.Settled) {operations : List Operation}
    (hsame : plain.replay operations = plain) : (printer.record operations).Settled := by
  rw [Settled, recorded_record, Style.replay_append, h, hsame]

theorem Settled.texts_record (h : printer.Settled) (operations : List Operation) :
    (printer.record operations).texts = printer.texts ++ plain.texts operations := by
  rw [texts, recorded_record, Style.texts_append, h, finished_record, texts, List.append_assoc]

/-- What is behind a printer that prints more texts. -/
structure Prints (printer later : Printer) (texts : List (Text × Style)) : Prop where
  /-- The style is plain again. -/
  settled : later.Settled
  /-- The texts come behind those before, each in its style. -/
  texts : later.texts = printer.texts ++ texts
  /-- Programs that are finished meanwhile begin and end in the plain style. -/
  finished : ∃ programs : List Program,
    later.finished.toList = printer.finished.toList ++ programs ∧
      ∀ program ∈ programs, program.SelfContained

namespace Prints

variable {middle later : Printer} {first second : List (Text × Style)}

theorem refl (h : printer.Settled) : Prints printer printer [] where
  settled := h
  texts := (List.append_nil _).symm
  finished := ⟨[], (List.append_nil _).symm, by simp⟩

theorem trans (hfirst : Prints printer middle first) (hsecond : Prints middle later second) :
    Prints printer later (first ++ second) where
  settled := hsecond.settled
  texts := by rw [hsecond.texts, hfirst.texts, List.append_assoc]
  finished := by
    obtain ⟨firstPrograms, hfirstFinished, hfirstContained⟩ := hfirst.finished
    obtain ⟨secondPrograms, hsecondFinished, hsecondContained⟩ := hsecond.finished
    refine ⟨firstPrograms ++ secondPrograms, ?_, ?_⟩
    · rw [hsecondFinished, hfirstFinished, List.append_assoc]
    · exact List.forall_mem_append.mpr ⟨hfirstContained, hsecondContained⟩

/-- What a settled printer finishes begins with a reset and ends as it was recorded. -/
theorem finish (h : printer.Settled) : Prints printer printer.finish [] where
  settled := printer.settled_finish
  texts := printer.texts_finish.trans (List.append_nil _).symm
  finished := by
    refine ⟨_, printer.finished_finish, ?_⟩
    intro program hmem
    split at hmem
    · simp at hmem
    · obtain rfl := List.mem_singleton.mp hmem
      exact ⟨rfl, fun style => h⟩

theorem record (h : printer.Settled) {operations : List Operation}
    (hsame : plain.replay operations = plain) :
    Prints printer (printer.record operations) (plain.texts operations) where
  settled := h.record hsame
  texts := h.texts_record operations
  finished := ⟨[], (List.append_nil _).symm, by simp⟩

end Prints

end Printer

namespace Command

variable {printer : Printer}

theorem prints_perform (h : printer.Settled) (command : Command) :
    printer.Prints (command.perform printer) (command.texts printer.profile) := by
  by_cases hexecute : command = execute
  · rw [hexecute, perform_execute]
    exact .finish h
  · rw [perform_of_ne_execute hexecute, ← texts_operations]
    exact .record h (replay_operations printer.profile command)

theorem prints_performAll (h : printer.Settled) (commands : List Command) :
    printer.Prints (performAll commands printer)
      (commands.flatMap (texts printer.profile)) := by
  induction commands generalizing printer with
  | nil => exact .refl h
  | cons command commands ih =>
      have hfirst := prints_perform h command
      have hlater := ih hfirst.settled
      rw [profile_perform] at hlater
      exact hfirst.trans hlater

/-- No command takes a style over from those before it or leaves one to those behind it,
wherever programs are finished between them: at every place in a list of commands, every
text so far is printed in the style of its own command, and the style is plain. -/
theorem styles_kept (h : printer.Settled) (commands : List Command) :
    ∀ front, front <+: commands →
      printer.Prints (performAll front printer) (front.flatMap (texts printer.profile)) := by
  intro front _
  exact prints_performAll h front

/-- A heading, a link that is cut off from the text behind it, and a centered line. -/
theorem styles_kept_heading_and_link :
    let printer := Printer.ofProfile .default
    let commands :=
      [title "Shopping".toList, link "list".toList "http://a.b".toList, execute,
        append "milk".toList, centered "end".toList]
    printer.Settled ∧ ∀ front, front <+: commands →
      printer.Prints (performAll front printer) (front.flatMap (texts printer.profile)) :=
  ⟨Printer.settled_ofProfile .default, styles_kept (Printer.settled_ofProfile .default) _⟩

end Command

end ReceiptNotes
