import Mathlib.Data.List.Induction
import Mathlib.Data.List.Infix
import ReceiptNotes.Proofs.Command.Performing
import ReceiptNotes.Proofs.Session.Sink

/-! # Showing and performing in lockstep

Commands are shown one after the other, and each is performed as soon as the output has
taken all of its preview. So when the output overflows, it does so inside the preview of
one command: those before it have been performed, and neither it nor any behind it has
(`render_of_beyond`). Where the output overflows is a matter of the previews alone
(`render_lockstep`).
-/

namespace ReceiptNotes.Command

variable {columns : Nat} {command : Command} {commands before first second : List Command}
  {out : Sink}

theorem previewAll_mono (h : first <+: second) :
    previewAll columns first <+: previewAll columns second :=
  h.flatMap _

/-- Commands whose previews fit are performed before anything behind them is shown. -/
theorem render_append_of_fits (printer : Printer) (second : List Command)
    (h : (out.write (previewAll columns first)).overflowed = false) :
    render columns (first ++ second) printer out =
      render columns second (performAll first printer) (out.write (previewAll columns first)) := by
  induction first generalizing printer out with
  | nil => simp [performAll_nil]
  | cons command first ih =>
      have hfits : (out.write (command.preview columns)).overflowed = false :=
        Sink.fits_of_prefix (List.prefix_append _ _) h
      rw [previewAll_cons, ← Sink.write_write] at h ⊢
      rw [List.cons_append, render, hfits]
      exact ih _ h

theorem render_of_fits (printer : Printer)
    (h : (out.write (previewAll columns commands)).overflowed = false) :
    render columns commands printer out =
      (performAll commands printer, out.write (previewAll columns commands)) := by
  have hall := render_append_of_fits printer [] h
  rwa [List.append_nil] at hall

/-- A command whose preview goes beyond the room of the output is the last one shown, and it
is not performed. -/
theorem render_of_beyond (printer : Printer) (behind : List Command)
    (hfits : (out.write (previewAll columns before)).overflowed = false)
    (hbeyond : (out.write (previewAll columns (before ++ [command]))).overflowed = true) :
    render columns (before ++ command :: behind) printer out =
      (performAll before printer, out.write (previewAll columns (before ++ [command]))) := by
  have hshown : (out.write (previewAll columns before)).write (command.preview columns) =
      out.write (previewAll columns (before ++ [command])) := by
    rw [Sink.write_write, previewAll_append, previewAll_cons, previewAll_nil, List.append_nil]
  rw [render_append_of_fits printer _ hfits, render, hshown, hbeyond, if_pos rfl]

/-- Previews that do not all fit go beyond the room of the output at one command. -/
theorem exists_beyond (hroom : out.overflowed = false)
    (h : (out.write (previewAll columns commands)).overflowed = true) :
    ∃ before command behind, commands = before ++ command :: behind ∧
      (out.write (previewAll columns before)).overflowed = false ∧
      (out.write (previewAll columns (before ++ [command]))).overflowed = true := by
  -- The last command is the one unless the previews before it go beyond the room already.
  induction commands using List.reverseRecOn with
  | nil =>
      rw [previewAll_nil, Sink.write_nil, hroom] at h
      contradiction
  | append_singleton before command ih =>
      cases hbefore : (out.write (previewAll columns before)).overflowed with
      | true =>
          obtain ⟨earlier, found, behind, rfl, hfits, hbeyond⟩ := ih hbefore
          exact ⟨earlier, found, behind ++ [command], by simp, hfits, hbeyond⟩
      | false => exact ⟨before, command, [], rfl, hbefore, h⟩

/-- If the previews do not all fit, they are shown up to one that overflows the
output. -/
theorem render_of_overflowed (printer : Printer)
    (h : (out.write (previewAll columns commands)).overflowed = true) :
    (render columns commands printer out).1.profile = printer.profile ∧
      ∃ told, told <+: previewAll columns commands ∧
        (render columns commands printer out).2 = out.write told ∧
        (out.write told).overflowed = true := by
  cases hroom : out.overflowed with
  | true =>
      -- Without any room, the first command is the last one shown.
      cases commands with
      | nil => exact ⟨rfl, [], List.nil_prefix, by simp [render], h⟩
      | cons command commands =>
          have hfirst : (out.write (command.preview columns)).overflowed = true := by
            apply Sink.overflowed_write_of_prefix List.nil_prefix
            rwa [Sink.write_nil]
          rw [render, hfirst, if_pos rfl]
          exact ⟨rfl, _, List.prefix_append _ _, rfl, hfirst⟩
  | false =>
      obtain ⟨before, command, behind, rfl, hfits, hbeyond⟩ := exists_beyond hroom h
      rw [render_of_beyond printer behind hfits hbeyond]
      refine ⟨profile_performAll, _, previewAll_mono ?_, rfl, hbeyond⟩
      exact ⟨behind, by simp⟩

/-- The command number `index` is the first whose preview, behind those before it, ends beyond
`limit` bytes. -/
structure FirstBeyond (columns : Nat) (commands : List Command) (limit index : Nat) : Prop where
  inside : index < commands.length
  beyond : limit < (Text.utf8 (previewAll columns (commands.take (index + 1)))).length
  first : ∀ earlier < index,
    (Text.utf8 (previewAll columns (commands.take (earlier + 1)))).length ≤ limit

/-- Of the previews up to one that overflows an output, those before it fit. -/
theorem firstBeyond {limit : Nat} (behind : List Command)
    (hfits : ((Sink.ofLimit (some limit)).write (previewAll columns before)).overflowed = false)
    (hbeyond : limit < (Text.utf8 (previewAll columns (before ++ [command]))).length) :
    FirstBeyond columns (before ++ command :: behind) limit before.length where
  inside := by simp
  beyond := by
    rwa [List.take_length_add_append, List.take_succ_cons, List.take_zero]
  first earlier hearlier := by
    have hfront : (before ++ command :: behind).take (earlier + 1) <+: before := by
      rw [List.take_append_of_le_length hearlier]
      exact List.take_prefix _ _
    have hshown := Sink.fits_of_prefix (previewAll_mono hfront) hfits
    rw [Sink.overflowed_write_ofLimit] at hshown
    simpa using hshown

/-- Preview and printer stay in lockstep, however much the output takes. If all previews fit,
the output holds them and the printer has performed all commands. If they do not, the output
has overflowed and holds as many bytes of them as it takes, and the printer has performed the
commands before the first whose preview is not all among these bytes. -/
theorem render_lockstep (columns : Nat) (commands : List Command) (printer : Printer)
    (limit : Nat) :
    let shown := Text.utf8 (previewAll columns commands)
    let (after, out) := render columns commands printer (.ofLimit (some limit))
    if shown.length ≤ limit then
      out.overflowed = false ∧ out.taken = shown ∧ after = performAll commands printer
    else
      out.overflowed = true ∧ out.taken = shown.take limit ∧
        ∃ index, FirstBeyond columns commands limit index ∧
          after = performAll (commands.take index) printer := by
  intro shown
  have hoverflowed : ((Sink.ofLimit (some limit)).write (previewAll columns commands)).overflowed =
      decide (limit < shown.length) := Sink.overflowed_write_ofLimit limit
  by_cases hroom : shown.length ≤ limit
  · rw [decide_eq_false (Nat.not_lt.mpr hroom)] at hoverflowed
    rw [render_of_fits printer hoverflowed]
    simp only [if_pos hroom, Sink.taken_write_ofLimit]
    exact ⟨hoverflowed, List.take_of_length_le hroom, trivial⟩
  · rw [decide_eq_true (Nat.lt_of_not_le hroom)] at hoverflowed
    obtain ⟨before, command, behind, rfl, hfits, hbeyond⟩ := exists_beyond rfl hoverflowed
    rw [render_of_beyond printer behind hfits hbeyond]
    have hlong := hbeyond
    rw [Sink.overflowed_write_ofLimit, decide_eq_true_eq] at hlong
    have hfront : previewAll columns (before ++ [command]) <+:
        previewAll columns (before ++ command :: behind) :=
      previewAll_mono ⟨behind, by simp⟩
    obtain ⟨later, hlater⟩ := hfront
    simp only [if_neg hroom, Sink.taken_write_ofLimit]
    refine ⟨hbeyond, ?_, before.length, firstBeyond behind hfits hlong, ?_⟩
    · -- The output takes nothing behind the preview that overflows it.
      simp only [shown, ← hlater, Text.utf8_append]
      rw [List.take_append_of_le_length (Nat.le_of_lt hlong)]
    · rw [List.take_left]

/-- The output ends inside a character of the third command. The program that was finished
before it stays finished. -/
example :
    let commands := [append ['a'], execute, append ['b', 'é'], cut]
    let (after, out) := render 41 commands (.ofProfile .default) (.ofLimit (some 3))
    out.taken = [0x61, 0x62, 0xC3] ∧ after.recorded = #[] ∧
      after.finished = #[[.reset, .text ['a']]] := by
  decide

end ReceiptNotes.Command
