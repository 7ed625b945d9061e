import ReceiptNotes.Note.Basic
import ReceiptNotes.Proofs.Session.Telling

/-! # The paper shows what the preview shows

The two renderings of a command are written down apart from each other. For commands
that are nothing but text, line breaks and styles they show the same characters in the
same order, but for the delimiters in which a preview spells bold, underlined and
centred text (`Command.paper_operations`). A list of such commands, rendered in step,
leaves the same text on the output and in the printer's buffer, and so does a note
whose lines hold no titles, links or QR codes (`Command.rendered_alike`).
-/

namespace ReceiptNotes

/-- What an operation puts on the paper, as text. -/
def Operation.paper : Operation → Text
  | .text line => line
  | .newline => ['\n']
  | _ => []

def Program.paper (program : Program) : Text :=
  program.flatMap Operation.paper

theorem Program.paper_append (first second : Program) :
    paper (first ++ second) = first.paper ++ second.paper :=
  List.flatMap_append

/-- A stretch of a preview. -/
inductive Fragment where
  | content (text : Text)
  /-- A sign of markup that a printer does without. -/
  | delimiter (text : Text)
  deriving DecidableEq, Repr

namespace Fragment

def text : Fragment → Text
  | content text | delimiter text => text

def printed : Fragment → Text
  | content text => text
  | delimiter _ => []

end Fragment

namespace Command

/-- The stretches of a preview. Only three commands have delimiters; the preview of any
other one is content as a whole. -/
def fragments (columns : Nat) : Command → List Fragment
  | bold data => [.delimiter "**".toList, .content data, .delimiter "**".toList]
  | underline data => [.delimiter "__".toList, .content data, .delimiter "__".toList]
  | centered data =>
      [.delimiter ":-- ".toList, .content data, .delimiter " --:".toList, .content ['\n']]
  | command => [.content (command.preview columns)]

/-- The previews of some commands without their delimiters. -/
def undelimited (columns : Nat) (commands : List Command) : Text :=
  (commands.flatMap (fragments columns)).flatMap Fragment.printed

/-- A preview is its stretches one after the other. -/
theorem text_fragments (columns : Nat) (command : Command) :
    (command.fragments columns).flatMap Fragment.text = command.preview columns := by
  cases command with
  | centered data =>
      -- The preview spells the closing delimiter and the line break in one.
      have hclosing : " --:\n".toList = " --:".toList ++ ['\n'] := by decide
      simp only [fragments, preview.eq_def, hclosing, List.flatMap_cons, List.flatMap_nil,
        Fragment.text, List.append_nil, List.append_assoc]
  | _ =>
      simp only [fragments, preview.eq_def, List.flatMap_cons, List.flatMap_nil, Fragment.text,
        List.append_nil, List.append_assoc]

theorem text_flatMap_fragments (columns : Nat) (commands : List Command) :
    (commands.flatMap (fragments columns)).flatMap Fragment.text =
      previewAll columns commands := by
  rw [List.flatMap_assoc, previewAll]
  exact congrArg (commands.flatMap ·) (funext (text_fragments columns))

/-- Text, line breaks and styles of text. -/
def isProse : Command → Bool
  | newLine | cut | rule _ | noop | append _ | printLine _ | bold _ | underline _
  | centered _ | leftRight _ _ => true
  | _ => false

/-- Commands of markup that are laid out on the paper in another way than in the preview. -/
def isLaidOut : Command → Bool
  | title _ | link _ _ | qrCode _ => true
  | _ => false

variable {profile : Profile} {command : Command} {commands : List Command}

/-- The operations of a command put its preview without the delimiters on the paper. -/
theorem paper_operations (h : command.isProse = true) :
    Program.paper (command.operations profile) =
      (command.fragments profile.width).flatMap Fragment.printed := by
  cases command with
  | rule breakLine =>
      cases breakLine <;>
        simp [operations, fragments, preview.eq_def, Program.paper, Operation.paper,
          Fragment.printed, Profile.rule]
  | execute | title _ | link _ _ | qrCode _ | code128 _ | code39 _ | pdf417 _ =>
      simp [isProse] at h
  | _ =>
      simp [operations, fragments, preview.eq_def, Program.paper, Operation.paper,
        Fragment.printed]

theorem paper_flatMap_operations (h : ∀ command ∈ commands, command.isProse = true) :
    Program.paper (commands.flatMap (operations profile)) =
      undelimited profile.width commands := by
  induction commands with
  | nil => rfl
  | cons command commands ih =>
      obtain ⟨hfirst, hlater⟩ := List.forall_mem_cons.mp h
      rw [List.flatMap_cons, Program.paper_append, paper_operations hfirst, ih hlater]
      simp only [undelimited, List.flatMap_cons, List.flatMap_append]

/-- A line of markup has no commands but those that its tokens can have. -/
theorem isProse_of_mem_ofLine {line : Text} (hmem : command ∈ ofLine line)
    (h : command.isLaidOut = false) : command.isProse = true := by
  unfold ofLine at hmem
  split at hmem
  · obtain ⟨token, -, rfl⟩ := List.mem_map.mp hmem
    unfold Markup.Token.command at h ⊢
    split <;> simp_all [isLaidOut, isProse]
  · obtain rfl := List.mem_singleton.mp hmem
    rfl

theorem ne_execute_of_isProse (h : command.isProse = true) : command ≠ execute := by
  rintro rfl
  contradiction

/-- Commands rendered in step show on an unlimited output all of their previews, and put on
the paper, behind what is there, the same text without its delimiters. -/
structure RenderedAlike (printer : Printer) (commands : List Command) : Prop where
  shown : (render printer.profile.width commands printer (.ofLimit none)).2.taken =
    Text.utf8 ((commands.flatMap (fragments printer.profile.width)).flatMap Fragment.text)
  printed : Program.paper
      (render printer.profile.width commands printer (.ofLimit none)).1.recorded.toList =
    Program.paper printer.recorded.toList ++ undelimited printer.profile.width commands

theorem RenderedAlike.of_prose (printer : Printer)
    (h : ∀ command ∈ commands, command.isProse = true) : RenderedAlike printer commands := by
  have hrender := @render_of_fits printer.profile.width commands (.ofLimit none) printer
    (Sink.overflowed_of_limit_none rfl)
  constructor
  · rw [hrender, Sink.taken_write_ofLimit, text_flatMap_fragments]
  · rw [hrender, recorded_performAll fun command hmem => ne_execute_of_isProse (h command hmem),
      Program.paper_append, paper_flatMap_operations h]

end Command

/-- All commands of a note whose lines have no command that is laid out in another way on
the paper are prose. -/
theorem Note.isProse_of_mem_commands {note : Note}
    (h : ∀ command ∈ note.bodyCommands, command.isLaidOut = false) :
    ∀ command ∈ note.commands, command.isProse = true := by
  intro command hmem
  simp only [commands, header, List.mem_append, List.mem_singleton] at hmem
  rcases hmem with (((hsubject | rfl) | rfl) | hbody) | rfl
  · split at hsubject
    · simp at hsubject
    · simp only [List.mem_cons, List.not_mem_nil, or_false] at hsubject
      rcases hsubject with rfl | rfl <;> rfl
  · rfl
  · rfl
  · obtain ⟨line, -, hline⟩ := List.mem_flatMap.mp hbody
    exact Command.isProse_of_mem_ofLine hline (h command hbody)
  · rfl

namespace Command

/-- Preview and printer show the same text of prose, and of every note whose lines hold
prose only. -/
theorem rendered_alike (printer : Printer) :
    (∀ commands : List Command, (∀ command ∈ commands, command.isProse = true) →
      RenderedAlike printer commands) ∧
    ∀ note : Note, (∀ command ∈ note.bodyCommands, command.isLaidOut = false) →
      RenderedAlike printer note.commands := by
  constructor
  · intro commands hprose
    exact .of_prose printer hprose
  · intro note hbody
    exact .of_prose printer (Note.isProse_of_mem_commands hbody)

/-- Two commands by themselves, and a note with all three delimiters. -/
theorem rendered_alike_slip :
    let printer := Printer.ofProfile { Profile.default with columns := 24 }
    let commands := [underline "2".toList, .printLine " eggs".toList]
    let note : Note := ⟨"shop".toList, default, [":-- tea --:".toList, "**milk** __2__".toList]⟩
    (∀ command ∈ commands, command.isProse = true) ∧
      (∀ command ∈ note.bodyCommands, command.isLaidOut = false) ∧
      Program.paper (render 24 commands printer (.ofLimit none)).1.recorded.toList =
        "2 eggs\n".toList ∧
      Program.paper (render 24 note.commands printer (.ofLimit none)).1.recorded.toList =
        "shop\n12:00 AM  1 January 1970\n------------------------\ntea\n\nmilk 2\n".toList := by
  intro printer commands note
  have hprose : ∀ command ∈ commands, command.isProse = true := by decide
  have hbody : ∀ command ∈ note.bodyCommands, command.isLaidOut = false := by decide +kernel
  obtain ⟨hlists, hnotes⟩ := rendered_alike printer
  refine ⟨hprose, hbody, ?_, ?_⟩
  · refine (hlists commands hprose).printed.trans ?_
    decide
  · refine (hnotes note hbody).printed.trans ?_
    decide +kernel

end Command

end ReceiptNotes
