import Mathlib.Data.List.DropRight
import ReceiptNotes.Printer.Device
import ReceiptNotes.Proofs.Command.Performing

/-! # Nothing recorded is lost, repeated or reordered

The calls on a printer have it record operations, and they cut what is recorded into
batches, one for each time a program is finished (`Device.batches`). Whenever jobs are
taken, what has been taken and what is still buffered are together these batches in
order: the finished ones that are not empty, each behind a reset, and at the end the one
that is still open (`Printer.Tracked`). A printer that has been cleared is a new one.
-/

namespace ReceiptNotes

/-- The bytes of a batch of operations when it is sent: what stands before it does not
reach into it. -/
def Program.job (batch : Program) : Bytes :=
  Encoding.reset ++ batch.bytes

theorem Program.flatMap_bytes_reset_cons (programs : List Program) :
    (programs.map (.reset :: ·)).flatMap Program.bytes = programs.flatMap Program.job := by
  rw [List.flatMap_map]
  rfl

namespace Device

variable (profile : Profile)

/-- The operations that a call has a printer record. -/
def Call.operations : Call → List Operation
  | .primitive step => step.operations profile
  | .command order => order.operations profile
  | .width | .execute | .clear | .takeJob => []

/-- Whether a call finishes a program. -/
def Call.finishes : Call → Bool
  | .execute | .command .execute => true
  | _ => false

/-- The operations that calls have a printer record, cut wherever a program is finished.
The last batch is still open. -/
def batches : List Call → List Program
  | [] => [[]]
  | call :: later =>
      if call.finishes then [] :: batches later
      else (batches later).modifyHead (call.operations profile ++ ·)

/-- The batches that hold something and behind which a program is finished. -/
def closed (calls : List Call) : List Program :=
  (batches profile calls).dropLast.filter (· ≠ [])

/-- The batch behind which no program is finished yet. -/
def opened (calls : List Call) : Program :=
  (batches profile calls).getLastD []

/-- The calls up to the last one that takes a job. -/
def untilTaken (calls : List Call) : List Call :=
  calls.rdropWhile (· ≠ .takeJob)

/-- The bytes that a reply hands out. -/
def Reply.taken : Reply → Bytes
  | .job bytes => bytes
  | .done | .width _ => []

/-- All bytes that some replies hand out, in order. -/
def taken (replies : List Reply) : Bytes :=
  replies.flatMap Reply.taken

variable {profile : Profile} {calls : List Call} {call : Call}

theorem batches_cons_of_finishes (h : call.finishes) :
    batches profile (call :: calls) = [] :: batches profile calls := by
  rw [batches, if_pos h]

theorem batches_cons_of_records (h : call.finishes = false) :
    batches profile (call :: calls) =
      (batches profile calls).modifyHead (call.operations profile ++ ·) := by
  rw [batches, if_neg (by simp [h])]

/-- The next call closes the batch that is open, or records behind it. -/
theorem exists_batches_concat (profile : Profile) (calls : List Call) (call : Call) :
    ∃ (earlier : List Program) (last : Program),
      batches profile calls = earlier ++ [last] ∧
      batches profile (calls ++ [call]) = earlier ++
        if call.finishes then [last, []] else [last ++ call.operations profile] := by
  induction calls with
  | nil =>
      refine ⟨[], [], rfl, ?_⟩
      cases h : call.finishes <;> simp [batches, h]
  | cons first calls ih =>
      obtain ⟨earlier, last, hcalls, hconcat⟩ := ih
      rw [List.cons_append]
      by_cases hfirst : first.finishes = true
      · refine ⟨[] :: earlier, last, ?_, ?_⟩
        · rw [batches_cons_of_finishes hfirst, hcalls, List.cons_append]
        · rw [batches_cons_of_finishes hfirst, hconcat, List.cons_append]
      · rw [Bool.not_eq_true] at hfirst
        rw [batches_cons_of_records hfirst, batches_cons_of_records hfirst, hcalls, hconcat]
        -- The first call records at the head, which is the open batch if there is no other.
        cases earlier with
        | nil =>
            refine ⟨[], first.operations profile ++ last, rfl, ?_⟩
            cases call.finishes <;> simp
        | cons head earlier =>
            exact ⟨(first.operations profile ++ head) :: earlier, last, rfl, rfl⟩

theorem batches_ne_nil (profile : Profile) (calls : List Call) :
    batches profile calls ≠ [] := by
  obtain ⟨earlier, last, hcalls, -⟩ := exists_batches_concat profile calls .execute
  simp [hcalls]

theorem closed_concat (h : call.finishes = false) :
    closed profile (calls ++ [call]) = closed profile calls := by
  obtain ⟨earlier, last, hcalls, hconcat⟩ := exists_batches_concat profile calls call
  simp [closed, hcalls, hconcat, h]

theorem opened_concat (h : call.finishes = false) :
    opened profile (calls ++ [call]) = opened profile calls ++ call.operations profile := by
  obtain ⟨earlier, last, hcalls, hconcat⟩ := exists_batches_concat profile calls call
  simp [opened, hcalls, hconcat, h]

theorem closed_concat_of_finishes (h : call.finishes) :
    closed profile (calls ++ [call]) =
      closed profile calls ++ [opened profile calls].filter (· ≠ []) := by
  obtain ⟨earlier, last, hcalls, hconcat⟩ := exists_batches_concat profile calls call
  have hsplit : [last, ([] : Program)] = [last] ++ [[]] := rfl
  rw [closed, hconcat, if_pos h, hsplit, ← List.append_assoc, List.dropLast_concat,
    List.filter_append, closed, opened, hcalls, List.dropLast_concat]
  simp

theorem opened_concat_of_finishes (h : call.finishes) :
    opened profile (calls ++ [call]) = [] := by
  obtain ⟨earlier, last, hcalls, hconcat⟩ := exists_batches_concat profile calls call
  simp [opened, hconcat, h]

/-- The open batch is closed like any other by finishing once more. -/
theorem closed_concat_execute :
    closed profile (calls ++ [.execute]) = (batches profile calls).filter (· ≠ []) := by
  have hlast : [opened profile calls] = [(batches profile calls).getLast
      (batches_ne_nil profile calls)] := by
    rw [opened, List.getLastD_eq_getLast?, List.getLast?_eq_some_getLast
      (batches_ne_nil profile calls), Option.getD_some]
  rw [closed_concat_of_finishes rfl, closed, ← List.filter_append, hlast,
    List.dropLast_append_getLast]

/-- Taking jobs cuts nothing. -/
theorem batches_filter_takeJob :
    batches profile (calls.filter (· ≠ .takeJob)) = batches profile calls := by
  induction calls with
  | nil => rfl
  | cons call calls ih =>
      by_cases hcall : call = .takeJob
      · have hsame : batches profile (.takeJob :: calls) = batches profile calls := by
          rw [batches_cons_of_records rfl]
          exact congrFun List.modifyHead_id _
        rw [List.filter_cons_of_neg (by simp [hcall]), ih, hcall, hsame]
      · rw [List.filter_cons_of_pos (by simp [hcall]), batches, ih, batches]

theorem untilTaken_concat_takeJob : untilTaken (calls ++ [.takeJob]) = calls ++ [.takeJob] :=
  List.rdropWhile_concat_neg _ _ _ (by simp)

theorem untilTaken_concat (h : call ≠ .takeJob) :
    untilTaken (calls ++ [call]) = untilTaken calls :=
  List.rdropWhile_concat_pos _ _ _ (by simp [h])

end Device

namespace Printer

open Device

variable {profile : Profile} {printer : Printer} {calls later : List Call} {call : Call}

theorem answerAll_append (first second : List Call) :
    printer.answerAll (first ++ second) =
      ((printer.answerAll first).1 ++ ((printer.answerAll first).2.answerAll second).1,
        ((printer.answerAll first).2.answerAll second).2) := by
  induction first generalizing printer with
  | nil => rfl
  | cons call first ih => simp only [List.cons_append, answerAll, ih]

theorem replies_concat :
    (printer.answerAll (calls ++ [call])).1 =
      (printer.answerAll calls).1 ++ [((printer.answerAll calls).2.answer call).1] := by
  rw [answerAll_append]
  rfl

theorem after_concat :
    (printer.answerAll (calls ++ [call])).2 = ((printer.answerAll calls).2.answer call).2 := by
  rw [answerAll_append]
  rfl

theorem answer_of_finishes (h : call.finishes) :
    printer.answer call = (.done, printer.finish) := by
  cases call with
  | execute => rfl
  | command order =>
      cases order with
      | execute => rfl
      | _ => simp [Call.finishes] at h
  | _ => simp [Call.finishes] at h

/-- A call that neither finishes, clears nor takes has its operations recorded and hands
out nothing. -/
theorem answer_of_records (hfinishes : call.finishes = false) (hclear : call ≠ .clear)
    (htakeJob : call ≠ .takeJob) :
    (printer.answer call).1.taken = [] ∧
      (printer.answer call).2 = printer.record (call.operations printer.profile) := by
  cases call with
  | width => exact ⟨rfl, by simp [answer, record, Call.operations]⟩
  | primitive step => exact ⟨rfl, rfl⟩
  | command order =>
      refine ⟨rfl, Command.perform_of_ne_execute ?_⟩
      rintro rfl
      simp [Call.finishes] at hfinishes
  | execute => simp [Call.finishes] at hfinishes
  | clear => exact absurd rfl hclear
  | takeJob => exact absurd rfl htakeJob

@[simp]
theorem profile_answer (printer : Printer) (call : Call) :
    (printer.answer call).2.profile = printer.profile := by
  cases call with
  | command order => exact Command.profile_perform order
  | execute => exact printer.profile_finish
  | _ => rfl

@[simp]
theorem profile_answerAll (printer : Printer) (calls : List Call) :
    (printer.answerAll calls).2.profile = printer.profile := by
  induction calls generalizing printer with
  | nil => rfl
  | cons call calls ih => rw [answerAll, ih, profile_answer]

/-- What calls on a new printer have handed out and what they leave in its buffer are
their batches. -/
structure Tracked (profile : Profile) (calls : List Call) (replies : List Reply)
    (printer : Printer) : Prop where
  profile_eq : printer.profile = profile
  recorded : printer.recorded.toList = opened profile calls
  taken : taken replies = (closed profile (untilTaken calls)).flatMap Program.job
  /-- Batches that have been closed since a job was last taken are still there. -/
  finished : ∃ waiting, closed profile calls = closed profile (untilTaken calls) ++ waiting ∧
    printer.finished.toList = waiting.map (.reset :: ·)

namespace Tracked

variable {replies : List Reply} {reply : Reply}

theorem new : Tracked profile [] [] (ofProfile profile) where
  profile_eq := rfl
  recorded := rfl
  taken := rfl
  finished := ⟨[], rfl, rfl⟩

/-- What waits to be taken follows what has been taken. -/
theorem taken_append_takeJob (h : Tracked profile calls replies printer) :
    Device.taken replies ++ printer.takeJob.1 =
      (closed profile calls).flatMap Program.job := by
  obtain ⟨waiting, hclosed, hfinished⟩ := h.finished
  rw [h.taken, Printer.takeJob, hfinished, Program.flatMap_bytes_reset_cons, hclosed,
    List.flatMap_append]

theorem takeJob (h : Tracked profile calls replies printer) :
    Tracked profile (calls ++ [.takeJob]) (replies ++ [.job printer.takeJob.1])
      printer.takeJob.2 where
  profile_eq := h.profile_eq
  recorded := by
    rw [opened_concat rfl]
    exact h.recorded.trans (List.append_nil _).symm
  taken := by
    rw [untilTaken_concat_takeJob, closed_concat rfl, ← h.taken_append_takeJob]
    simp [Device.taken, Reply.taken]
  finished := ⟨[], by rw [untilTaken_concat_takeJob, List.append_nil], rfl⟩

/-- A call that takes no job hands nothing out. -/
theorem taken_concat (h : Tracked profile calls replies printer) (hcall : call ≠ .takeJob)
    (hreply : reply.taken = []) :
    Device.taken (replies ++ [reply]) =
      (closed profile (untilTaken (calls ++ [call]))).flatMap Program.job := by
  rw [untilTaken_concat hcall, ← h.taken]
  simp [Device.taken, hreply]

theorem finish (h : Tracked profile calls replies printer) (hcall : call ≠ .takeJob)
    (hfinishes : call.finishes) :
    Tracked profile (calls ++ [call]) (replies ++ [.done]) printer.finish where
  profile_eq := printer.profile_finish.trans h.profile_eq
  recorded := by rw [recorded_finish, opened_concat_of_finishes hfinishes]
  taken := h.taken_concat hcall rfl
  finished := by
    obtain ⟨waiting, hclosed, hfinished⟩ := h.finished
    refine ⟨waiting ++ [opened profile calls].filter (· ≠ []), ?_, ?_⟩
    · rw [closed_concat_of_finishes hfinishes, hclosed, untilTaken_concat hcall,
        List.append_assoc]
    · rw [finished_finish, hfinished, List.map_append, ← h.recorded]
      by_cases hempty : printer.recorded = #[] <;> simp [hempty]

theorem record (h : Tracked profile calls replies printer) (hcall : call ≠ .takeJob)
    (hrecords : call.finishes = false) (hreply : reply.taken = []) :
    Tracked profile (calls ++ [call]) (replies ++ [reply])
      (printer.record (call.operations profile)) where
  profile_eq := h.profile_eq
  recorded := by rw [recorded_record, h.recorded, opened_concat hrecords]
  taken := h.taken_concat hcall hreply
  finished := by
    rw [closed_concat hrecords, untilTaken_concat hcall]
    exact h.finished

theorem answer (h : Tracked profile calls replies printer) (hclear : call ≠ .clear) :
    Tracked profile (calls ++ [call]) (replies ++ [(printer.answer call).1])
      (printer.answer call).2 := by
  by_cases htakeJob : call = .takeJob
  · rw [htakeJob]
    exact h.takeJob
  · cases hfinishes : call.finishes with
    | true =>
        rw [answer_of_finishes hfinishes]
        exact h.finish htakeJob hfinishes
    | false =>
        obtain ⟨hreply, hafter⟩ := answer_of_records hfinishes hclear htakeJob
        rw [hafter, h.profile_eq]
        exact h.record htakeJob hfinishes hreply

end Tracked

theorem tracked_answerAll (h : .clear ∉ calls) :
    Tracked profile calls ((ofProfile profile).answerAll calls).1
      ((ofProfile profile).answerAll calls).2 := by
  induction calls using List.reverseRecOn with
  | nil => exact .new
  | append_singleton calls call ih =>
      obtain ⟨hcalls, hcall⟩ := not_or.mp (mt List.mem_append.mpr h)
      rw [replies_concat, after_concat]
      exact (ih hcalls).answer (fun hclear => hcall (List.mem_singleton.mpr hclear.symm))

/-- All bytes that calls on a new printer hand out, in order. -/
def handedOut (profile : Profile) (calls : List Call) : Bytes :=
  taken ((ofProfile profile).answerAll calls).1

/-- What a printer does with the operations that calls have it record, from a new printer
on and as long as it is not cleared. -/
structure Conserved (profile : Profile) (calls : List Call) : Prop where
  /-- If a program is finished at the end and a job taken, exactly the batches that hold
  something have been handed out, in order and each behind a reset. -/
  total : handedOut profile (calls ++ [.execute, .takeJob]) =
    ((batches profile calls).filter (· ≠ [])).flatMap Program.job
  /-- It makes no difference where jobs are taken before. -/
  placement : ∀ others : List Call,
    others.filter (· ≠ .takeJob) = calls.filter (· ≠ .takeJob) →
    handedOut profile (others ++ [.execute, .takeJob]) =
      handedOut profile (calls ++ [.execute, .takeJob])
  /-- A job that is taken at once holds all that is finished and nothing else. -/
  finished : handedOut profile (calls ++ [.takeJob]) =
    (closed profile calls).flatMap Program.job
  /-- What is not finished stays recorded, also when a job is taken. -/
  recorded : ((ofProfile profile).answerAll calls).2.recorded.toList = opened profile calls ∧
    ((ofProfile profile).answerAll (calls ++ [.takeJob])).2.recorded.toList =
      opened profile calls
  /-- If nothing is recorded, finishing changes nothing. -/
  idle : opened profile calls = [] →
    ((ofProfile profile).answerAll (calls ++ [.execute])).2 =
      ((ofProfile profile).answerAll calls).2
  /-- As many programs wait as batches have been closed since a job was last taken. -/
  waiting : ((ofProfile profile).answerAll calls).2.finished.size +
    (closed profile (untilTaken calls)).length = (closed profile calls).length

theorem finish_of_recorded_eq_nil (h : printer.recorded.toList = []) :
    printer.finish = printer := by
  rw [finish, if_pos (by simpa using h)]

theorem handedOut_takeJob (h : .clear ∉ calls) :
    handedOut profile (calls ++ [.takeJob]) = (closed profile calls).flatMap Program.job := by
  rw [handedOut, replies_concat, ← (tracked_answerAll h).taken_append_takeJob]
  simp [taken, Printer.answer, Reply.taken]

theorem handedOut_execute_takeJob (h : .clear ∉ calls) :
    handedOut profile (calls ++ [.execute, .takeJob]) =
      ((batches profile calls).filter (· ≠ [])).flatMap Program.job := by
  have hclear : Call.clear ∉ calls ++ [.execute] := by simp [h]
  have hsplit : calls ++ [.execute, .takeJob] = (calls ++ [Call.execute]) ++ [.takeJob] := by
    simp
  rw [hsplit, handedOut_takeJob hclear, closed_concat_execute]

theorem conserved (h : .clear ∉ calls) : Conserved profile calls where
  total := handedOut_execute_takeJob h
  placement := by
    intro others hothers
    have hclear : Call.clear ∉ others := by
      intro hmem
      have hkept : Call.clear ∈ others.filter (· ≠ .takeJob) :=
        List.mem_filter.mpr ⟨hmem, by simp⟩
      rw [hothers] at hkept
      exact h (List.mem_filter.mp hkept).1
    rw [handedOut_execute_takeJob hclear, handedOut_execute_takeJob h,
      ← batches_filter_takeJob, hothers, batches_filter_takeJob]
  finished := handedOut_takeJob h
  recorded := by
    have hrecorded := (@tracked_answerAll profile calls h).recorded
    refine ⟨hrecorded, ?_⟩
    rw [after_concat]
    exact hrecorded
  idle := by
    intro hopened
    rw [after_concat]
    apply finish_of_recorded_eq_nil
    rw [(tracked_answerAll h).recorded, hopened]
  waiting := by
    obtain ⟨waiting, hclosed, hfinished⟩ := (@tracked_answerAll profile calls h).finished
    have hsize := congrArg List.length hfinished
    rw [hclosed, List.length_append, Nat.add_comm, ← Array.length_toList, hsize,
      List.length_map]

/-- A printer neither loses, repeats nor reorders what it has been given to record, until
it is cleared. Then it is a new printer. -/
theorem buffer_conserves (profile : Profile) (calls : List Call) (h : .clear ∉ calls) :
    Conserved profile calls ∧
      ∀ past later : List Call,
        ((ofProfile profile).answerAll (past ++ [.clear])).2.answerAll later =
          (ofProfile profile).answerAll later := by
  refine ⟨conserved h, ?_⟩
  intro past later
  rw [after_concat, answer, clear, profile_answerAll]
  rfl

/-- A job is taken before anything is finished, a program is finished twice, and the last
batch is still open. -/
theorem buffer_conserves_interleaved :
    let calls : List Call :=
      [.primitive (.append "milk".toList), .takeJob, .command .execute, .execute,
        .command (.bold "bread".toList), .width, .execute, .takeJob, .primitive .cut]
    .clear ∉ calls ∧ Conserved .default calls ∧
      ∀ past later : List Call,
        ((ofProfile .default).answerAll (past ++ [.clear])).2.answerAll later =
          (ofProfile .default).answerAll later :=
  ⟨by decide, buffer_conserves .default _ (by decide)⟩

end Printer

end ReceiptNotes
