import ReceiptNotes.Command.Basic

/-! # Performing commands

What a printer becomes when commands are performed one after the other: its profile
stays, and unless a program is finished among them, their operations are recorded
behind those recorded before (`recorded_performAll`). Their previews are shown one after
the other (`previewAll_append`).
-/

namespace ReceiptNotes.Command

variable {columns : Nat} {command : Command} {commands : List Command} {printer : Printer}

@[simp]
theorem previewAll_nil : previewAll columns [] = [] := rfl

theorem previewAll_cons (command : Command) :
    previewAll columns (command :: commands) =
      command.preview columns ++ previewAll columns commands := rfl

theorem previewAll_append (first second : List Command) :
    previewAll columns (first ++ second) =
      previewAll columns first ++ previewAll columns second :=
  List.flatMap_append

@[simp]
theorem profile_perform (command : Command) :
    (command.perform printer).profile = printer.profile := by
  cases command <;> simp [perform]

@[simp]
theorem profile_performAll : (performAll commands printer).profile = printer.profile := by
  induction commands generalizing printer with
  | nil => rfl
  | cons command commands ih =>
      have hlater := @ih (command.perform printer)
      rwa [profile_perform] at hlater

theorem performAll_nil : performAll [] printer = printer := rfl

theorem performAll_cons (command : Command) (commands : List Command) :
    performAll (command :: commands) printer =
      performAll commands (command.perform printer) := rfl

theorem performAll_append (first second : List Command) :
    performAll (first ++ second) printer = performAll second (performAll first printer) :=
  List.foldl_append

theorem perform_execute : execute.perform printer = printer.finish := rfl

theorem perform_of_ne_execute (h : command ≠ execute) :
    command.perform printer = printer.record (command.operations printer.profile) := by
  cases command with
  | execute => contradiction
  | _ => rfl

theorem recorded_performAll (h : ∀ command ∈ commands, command ≠ execute) :
    (performAll commands printer).recorded.toList =
      printer.recorded.toList ++ commands.flatMap (operations printer.profile) := by
  induction commands generalizing printer with
  | nil => simp [performAll_nil]
  | cons command commands ih =>
      obtain ⟨hfirst, hlater⟩ := List.forall_mem_cons.mp h
      rw [performAll_cons, ih hlater, profile_perform, perform_of_ne_execute hfirst,
        Printer.recorded_record, List.flatMap_cons, List.append_assoc]

theorem finished_performAll (h : ∀ command ∈ commands, command ≠ execute) :
    (performAll commands printer).finished = printer.finished := by
  induction commands generalizing printer with
  | nil => rfl
  | cons command commands ih =>
      obtain ⟨hfirst, hlater⟩ := List.forall_mem_cons.mp h
      rw [performAll_cons, ih hlater, perform_of_ne_execute hfirst, Printer.finished_record]

end ReceiptNotes.Command
