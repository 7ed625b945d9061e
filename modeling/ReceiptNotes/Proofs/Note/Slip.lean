import ReceiptNotes.Note.Basic
import ReceiptNotes.Proofs.Command.Lockstep
import ReceiptNotes.Proofs.Markup.Pieces

/-! # A note is one job

Whatever stands in a line, it becomes a command for each token or is printed as it is, and
among its commands are none of those that a slip is framed with (`Command.OfOneLine`). So a
note is cut off once, at its end, and its commands make one program, which is reset once, at
its start (`Note.one_job`).
-/

namespace ReceiptNotes

namespace Markup

variable {atStart : Bool} {text : Text} {kind : Kind} {found : Match} {rank : Rank}

/-- What a piece is written with stands in its text. -/
theorem Pieces.mem_of_mem_lexeme {pieces : List (Kind × Match)} (h : Pieces atStart text pieces)
    {piece : Kind × Match} (hpiece : piece ∈ pieces) {c : Char} (hc : c ∈ piece.2.lexeme) :
    c ∈ text := by
  induction h with
  | nil => simp at hpiece
  | cons hfirst _ ih =>
      obtain ⟨rank, hread⟩ := hfirst.reading
      rw [hread.splits, List.mem_append]
      rcases List.mem_cons.mp hpiece with rfl | hlater
      · exact .inl hc
      · exact .inr (ih hlater)

end Markup

namespace Command

open Markup (Form Kind Match Pieces Rank)

/-- The commands of a slip around its lines, and those that no markup stands for. -/
def isReserved : Command → Bool
  | execute | cut | noop | leftRight _ _ | code128 _ | code39 _ | pdf417 _ => true
  | _ => false

def endsLine : Command → Bool
  | newLine | printLine _ => true
  | _ => false

/-- What a line of a note becomes. -/
structure OfOneLine (line : Text) (commands : List Command) : Prop where
  /-- There is one command for each token, or the line is printed as it stands. -/
  counted :
    match Markup.lex line with
    | .ok tokens => commands = tokens.map Markup.Token.command
    | .error _ => commands = [.printLine line]
  unreserved : ∀ command ∈ commands, command.isReserved = false
  /-- Without line feeds in it, a line is ended once, behind all else. -/
  ended : '\n' ∉ line → ∃ before last, commands = before ++ [last] ∧ last.endsLine ∧
    ∀ command ∈ before, ¬ command.endsLine

variable {kind : Kind} {found : Match} {rank : Rank} {line : Text} {profile : Profile}
  {command : Command}

/-- The payload of a piece fits its kind, so the piece does not become an idle command. -/
theorem isReserved_command (h : Form kind found.payload found.lexeme rank) :
    (found.command kind).isReserved = false := by
  obtain ⟨lexeme, payload, rest⟩ := found
  dsimp only at h
  cases h <;> rfl

theorem endsLine_command (h : Form kind found.payload found.lexeme rank)
    (hends : (found.command kind).endsLine) : '\n' ∈ found.lexeme := by
  obtain ⟨lexeme, payload, rest⟩ := found
  dsimp only at h ⊢
  cases h with
  | lineFeed => exact List.mem_singleton_self _
  | carriageReturn => exact List.mem_cons_of_mem _ (List.mem_singleton_self _)
  | _ => contradiction

theorem ofOneLine (line : Text) : OfOneLine line (ofLine line) := by
  have hcounted : match Markup.lex line with
      | .ok tokens => ofLine line = tokens.map Markup.Token.command
      | .error _ => ofLine line = [.printLine line] := by
    rw [ofLine]
    cases Markup.lex line <;> rfl
  by_cases hmarkup : ∃ pieces, Pieces true line pieces
  · obtain ⟨pieces, hpieces⟩ := hmarkup
    have hcommands := ofLine_of_pieces hpieces
    refine ⟨hcounted, ?_, ?_⟩
    · rw [hcommands, Markup.commands, List.forall_mem_append, List.forall_mem_map,
        List.forall_mem_singleton]
      refine ⟨fun piece hpiece => ?_, rfl⟩
      obtain ⟨rank, hform⟩ := hpieces.form piece hpiece
      exact isReserved_command hform
    · intro hline
      refine ⟨Markup.commands pieces, .newLine, hcommands, rfl, ?_⟩
      rw [Markup.commands, List.forall_mem_map]
      intro piece hpiece hends
      obtain ⟨rank, hform⟩ := hpieces.form piece hpiece
      exact hline (hpieces.mem_of_mem_lexeme hpiece (endsLine_command hform hends))
  · have hcommands := ofLine_of_not_pieces (not_exists.mp hmarkup)
    refine ⟨hcounted, ?_, fun _ => ⟨[], .printLine line, hcommands, rfl, by simp⟩⟩
    rw [hcommands, List.forall_mem_singleton]
    rfl

/-- Only finishing a program resets the printer, and only one command cuts the paper. -/
theorem framing_operations : .reset ∉ command.operations profile ∧
    (.cut ∈ command.operations profile ↔ command = .cut) := by
  cases command with
  | rule breakLine => cases breakLine <;> simp [operations]
  | _ => simp [operations, TextSize.operation, Profile.qrCode, Profile.barcode, Profile.pdf417]

end Command

namespace Note

variable {note : Note} {profile : Profile} {columns : ℕ}

/-- The commands of a note cut the paper once, behind all else, and leave finishing the program
to others. -/
structure OneSlip (commands : List Command) : Prop where
  cut_last : commands.getLast? = some .cut
  cut_once : commands.count .cut = 1
  unfinished : .execute ∉ commands
  busy : .noop ∉ commands

/-- One program is all that a printer holds. It is reset at its start and cut at its end, and
nowhere else, and so are the bytes of its job. -/
structure OneJob (printer : Printer) : Prop where
  recorded : printer.recorded = #[]
  finished : ∃ program, printer.finished = #[program] ∧
    program.head? = some .reset ∧ program.count .reset = 1 ∧
    program.getLast? = some .cut ∧ program.count .cut = 1
  opening : [0x1B, 0x40] <+: printer.takeJob.1
  closing : [0x1B, 0x64, 0x02] <:+ printer.takeJob.1

/-- Before the cut, nothing is reserved but the time and the date. -/
theorem exists_commands (note : Note) :
    ∃ before, note.commands = before ++ [.cut] ∧
      ∀ command ∈ before, command ≠ .cut ∧ command ≠ .execute ∧ command ≠ .noop := by
  refine ⟨_, rfl, fun command hmem => ?_⟩
  simp only [header, bodyCommands, List.mem_append, List.mem_singleton, List.mem_flatMap] at hmem
  rcases hmem with ((hsubject | rfl) | rfl) | ⟨line, -, hline⟩
  · split at hsubject
    · simp at hsubject
    · simp only [List.mem_cons, List.not_mem_nil, or_false] at hsubject
      rcases hsubject with rfl | rfl <;> simp
  · simp
  · simp
  · have hreserved := (Command.ofOneLine line).unreserved command hline
    refine ⟨?_, ?_, ?_⟩
    · rintro rfl
      contradiction
    · rintro rfl
      contradiction
    · rintro rfl
      contradiction

theorem oneSlip_commands (note : Note) : OneSlip note.commands := by
  obtain ⟨before, hcommands, hbefore⟩ := note.exists_commands
  have hcut : .cut ∉ before := fun hmem => (hbefore _ hmem).1 rfl
  have hexecute : .execute ∉ before := fun hmem => (hbefore _ hmem).2.1 rfl
  have hnoop : .noop ∉ before := fun hmem => (hbefore _ hmem).2.2 rfl
  rw [hcommands]
  refine ⟨List.getLast?_concat, ?_, ?_, ?_⟩
  · rw [List.count_append, List.count_eq_zero_of_not_mem hcut]
    rfl
  · simp [hexecute]
  · simp [hnoop]

/-- A program that is reset only by being finished and cut only at its end is one job. -/
theorem OneJob.of_finished {printer : Printer} (before : Program)
    (hrecorded : printer.recorded = #[])
    (hfinished : printer.finished = #[.reset :: (before ++ [.cut])])
    (hreset : .reset ∉ before) (hcut : .cut ∉ before) : OneJob printer := by
  have hbytes : printer.takeJob.1 =
      Encoding.reset ++ Program.bytes before ++ Encoding.cutAfterFeed := by
    simp [Printer.takeJob, hfinished, Program.bytes, Operation.bytes]
  refine ⟨hrecorded, ⟨_, hfinished, rfl, ?_, ?_, ?_⟩, ?_, ?_⟩
  · rw [List.count_cons_self, List.count_append, List.count_eq_zero_of_not_mem hreset]
    rfl
  · exact @List.getLast?_concat _ (.reset :: before) .cut
  · rw [List.count_cons_of_ne (by simp), List.count_append, List.count_eq_zero_of_not_mem hcut]
    rfl
  · rw [hbytes, List.append_assoc]
    exact List.prefix_append _ _
  · rw [hbytes]
    exact List.suffix_append _ _

/-- The commands of a note, performed by a new printer, are finished as one program. -/
theorem oneJob_performAll (note : Note) (profile : Profile) :
    OneJob (Command.execute.perform (Command.performAll note.commands (.ofProfile profile))) := by
  obtain ⟨before, hcommands, hbefore⟩ := note.exists_commands
  have hexecute : ∀ command ∈ note.commands, command ≠ .execute := by
    rintro _ hmem rfl
    exact note.oneSlip_commands.unfinished hmem
  have hrecorded : (Command.performAll note.commands (.ofProfile profile)).recorded.toList =
      before.flatMap (Command.operations profile) ++ [.cut] := by
    rw [Command.recorded_performAll hexecute, hcommands, List.flatMap_append]
    rfl
  have hne : (Command.performAll note.commands (.ofProfile profile)).recorded ≠ #[] := by
    intro hempty
    simp [hempty] at hrecorded
  refine .of_finished (before.flatMap (Command.operations profile)) (Printer.recorded_finish _)
    ?_ ?_ ?_
  · apply Array.toList_inj.mp
    rw [Command.perform_execute, Printer.finished_finish, if_neg hne, hrecorded,
      Command.finished_performAll hexecute]
    rfl
  · intro hmem
    obtain ⟨command, -, hreset⟩ := List.mem_flatMap.mp hmem
    exact Command.framing_operations.1 hreset
  · intro hmem
    obtain ⟨command, hcommand, hcut⟩ := List.mem_flatMap.mp hmem
    exact (hbefore command hcommand).1 (Command.framing_operations.2.mp hcut)

/-- Whatever is typed, a note is one job with one reset and one cut. -/
theorem one_job (note : Note) (profile : Profile) (columns : ℕ) :
    (∀ line, Command.OfOneLine line (Command.ofLine line)) ∧ OneSlip note.commands ∧
      OneJob (Command.execute.perform
        (Command.render columns note.commands (.ofProfile profile) (.ofLimit none)).1) := by
  refine ⟨Command.ofOneLine, note.oneSlip_commands, ?_⟩
  rw [Command.render_of_fits _ (Sink.overflowed_of_limit_none rfl)]
  exact note.oneJob_performAll profile

end Note

end ReceiptNotes
