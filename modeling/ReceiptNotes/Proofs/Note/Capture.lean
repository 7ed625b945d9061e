import Mathlib.Order.Bounds.Basic
import ReceiptNotes.Proofs.Session.Closing

/-! # What a body captures

Every line that is pushed to a body is captured, and each push tells whether the body is
complete with it. The first that tells so is that of the second line of the first end mark:
two blank lines behind at least one other (`Captured.first_iff`). Of the captured lines a
finished body keeps the longest front part that does not end in a blank line (`Keeps`).
-/

namespace ReceiptNotes.Body

/-- A body after some more lines. -/
def pushAll (body : Body) (lines : List Text) : Body :=
  lines.foldl push body

/-- What is told of lines that are pushed one after the other: whether the body is complete
with the line. -/
def answers (body : Body) : List Text → List Bool
  | [] => []
  | line :: later => (body.push line).isComplete :: (body.push line).answers later

/-- There is a line at some place, and it is blank. -/
def BlankAt (lines : List Text) (place : ℕ) : Prop :=
  ∃ line ∈ lines[place]?, Text.isBlankLine line

/-- Counted from one, the line number `count` and the one before it are blank, and another
line stands before these. -/
structure EndMark (lines : List Text) (count : ℕ) : Prop where
  third : 3 ≤ count
  before : BlankAt lines (count - 2)
  last : BlankAt lines (count - 1)

/-- There are no lines, or the last one is not blank. -/
def Filled (lines : List Text) : Prop :=
  ∀ last ∈ lines.getLast?, ¬ Text.isBlankLine last

/-- Of some lines, `kept` are those without the blank ones at the end. -/
structure Keeps (lines kept : List Text) : Prop where
  front : kept <+: lines
  filled : Filled kept
  longest : ∀ other, other <+: lines → Filled other → other <+: kept
  dropped : ∀ line ∈ lines.drop kept.length, Text.isBlankLine line
  again : (ofLines kept).finish = kept

/-- What comes of lines that are pushed to a new body. -/
structure Captured (lines : List Text) : Prop where
  lines_eq : (empty.pushAll lines).lines = lines
  answers_eq : empty.answers lines = (List.range lines.length).map fun index =>
    (empty.pushAll (lines.take (index + 1))).isComplete
  /-- The first push to answer yes is that of the line with which the first end mark is there. -/
  first_iff : ∀ index, (empty.answers lines).findIdx? id = some index ↔
    IsLeast {count | EndMark lines count} (index + 1)
  keeps : Keeps lines (empty.pushAll lines).finish
  /-- A body that is finished with that push has no two blank lines together but its first two. -/
  apart : ∀ index, (empty.answers lines).findIdx? id = some index →
    ∀ place, let kept := (empty.pushAll (lines.take (index + 1))).finish
      BlankAt kept place → BlankAt kept (place + 1) → place = 0

section Pushing

variable {body : Body} {lines : List Text}

theorem lines_pushAll : (body.pushAll lines).lines = body.lines ++ lines := by
  induction lines generalizing body with
  | nil => exact (List.append_nil _).symm
  | cons line lines ih =>
      have hlater := @ih (body.push line)
      rw [lines_push, List.append_assoc] at hlater
      exact hlater

theorem answers_eq_map : body.answers lines = (List.range lines.length).map fun index =>
    (body.pushAll (lines.take (index + 1))).isComplete := by
  induction lines generalizing body with
  | nil => rfl
  | cons line lines ih =>
      rw [answers, ih, List.length_cons, List.range_succ_eq_map, List.map_cons, List.map_map]
      rfl

end Pushing

variable {lines kept : List Text} {index count : ℕ}

theorem BlankAt.lt_length (h : BlankAt lines index) : index < lines.length := by
  obtain ⟨line, hline, -⟩ := h
  exact (List.getElem?_eq_some_iff.mp hline).1

theorem BlankAt.of_prefix (h : BlankAt kept index) (hfront : kept <+: lines) :
    BlankAt lines index := by
  obtain ⟨line, hline, hblank⟩ := h
  obtain ⟨behind, rfl⟩ := hfront
  refine ⟨line, ?_, hblank⟩
  rw [List.getElem?_append_left (List.getElem?_eq_some_iff.mp hline).1]
  exact hline

theorem EndMark.le_length (h : EndMark lines count) : count ≤ lines.length := by
  have hlast := h.last.lt_length
  omega

/-- The first lines up to some number end a body if an end mark is there. -/
theorem endsBody_take_iff (hcount : count ≤ lines.length) :
    EndsBody (lines.take count) ↔ EndMark lines count := by
  rw [endsBody_iff]
  constructor
  · rintro ⟨before, first, second, htake, hbefore, hfirst, hsecond⟩
    have hlength := congrArg List.length htake
    simp only [List.length_take, Nat.min_eq_left hcount, List.length_append, List.length_cons,
      List.length_nil] at hlength
    have hpositive := List.length_pos_iff.mpr hbefore
    have hfront : before ++ [first, second] <+: lines := htake ▸ List.take_prefix count lines
    refine ⟨by omega, BlankAt.of_prefix ⟨first, ?_, hfirst⟩ hfront,
      BlankAt.of_prefix ⟨second, ?_, hsecond⟩ hfront⟩
    · simp [hlength]
    · simp [hlength]
  · rintro ⟨hthird, ⟨first, hbefore, hfirst⟩, second, hlast, hsecond⟩
    obtain ⟨front, rfl⟩ := Nat.exists_eq_add_of_le' (Nat.le_of_succ_le hthird)
    refine ⟨lines.take front, first, second, ?_, ?_, hfirst, hsecond⟩
    · simp only [Nat.add_sub_cancel, Nat.add_one_sub_one, Option.mem_def] at hbefore hlast
      rw [List.take_add_one, List.take_add_one, hbefore, hlast, List.append_assoc]
      rfl
    · rw [ne_eq, List.take_eq_nil_iff]
      rintro (rfl | rfl)
      · omega
      · simp at hlast

theorem isComplete_pushAll_take (hindex : index < lines.length) :
    (empty.pushAll (lines.take (index + 1))).isComplete ↔ EndMark lines (index + 1) := by
  rw [isComplete_iff, lines_pushAll, lines_empty, List.nil_append, endsBody_take_iff hindex]

theorem getElem?_answers :
    (empty.answers lines)[index]? = some true ↔ EndMark lines (index + 1) := by
  rw [answers_eq_map, List.getElem?_map]
  constructor
  · intro h
    obtain ⟨place, hplace, hcomplete⟩ := Option.map_eq_some_iff.mp h
    obtain ⟨hlength, hsame⟩ := List.getElem?_eq_some_iff.mp hplace
    rw [List.getElem_range] at hsame
    rw [List.length_range] at hlength
    exact (isComplete_pushAll_take hlength).mp (hsame ▸ hcomplete)
  · intro h
    rw [List.getElem?_range h.le_length, Option.map_some]
    exact congrArg some ((isComplete_pushAll_take h.le_length).mpr h)

/-- The first push to answer yes and the least number with an end mark are the same. -/
theorem findIdx?_answers :
    (empty.answers lines).findIdx? id = some index ↔
      IsLeast {count | EndMark lines count} (index + 1) := by
  have hanswer : ∀ place, (∃ hlength : place < (empty.answers lines).length,
      (empty.answers lines)[place] = true) ↔ EndMark lines (place + 1) := by
    intro place
    rw [← getElem?_answers, List.getElem?_eq_some_iff]
  rw [List.findIdx?_eq_some_iff_getElem]
  constructor
  · rintro ⟨hlength, hyes, hearlier⟩
    refine ⟨(hanswer index).mp ⟨hlength, hyes⟩, ?_⟩
    intro count hmark
    by_contra hless
    obtain ⟨place, rfl⟩ := Nat.exists_eq_add_of_le' ((Nat.le_add_left 1 2).trans hmark.third)
    obtain ⟨_, htrue⟩ := (hanswer place).mpr hmark
    exact hearlier place (by omega) htrue
  · rintro ⟨hmark, hleast⟩
    obtain ⟨hlength, hyes⟩ := (hanswer index).mpr hmark
    refine ⟨hlength, hyes, ?_⟩
    intro place hplace htrue
    have hle := hleast ((hanswer place).mp ⟨hplace.trans hlength, htrue⟩)
    omega

/-- Blank lines behind lines that are kept are dropped. -/
theorem Keeps.of_append {dropped : List Text} (hfilled : Filled kept)
    (hdropped : ∀ line ∈ dropped, Text.isBlankLine line) : Keeps (kept ++ dropped) kept where
  front := List.prefix_append kept dropped
  filled := hfilled
  longest other hother hother' := by
    rcases List.prefix_or_prefix_of_prefix hother (List.prefix_append kept dropped)
      with hshorter | ⟨more, rfl⟩
    · exact hshorter
    · -- A last line beyond the kept ones would be blank.
      have hmore : more <+: dropped := (List.prefix_append_right_inj kept).mp hother
      cases hlast : more.getLast? with
      | none => simp [List.getLast?_eq_none_iff.mp hlast]
      | some last =>
          have hblank := hdropped last (hmore.subset (List.mem_of_getLast? hlast))
          exact absurd hblank (hother' last (by simp [hlast]))
  dropped := by rwa [List.drop_left]
  again := by rw [finish_eq, lines_ofLines, rdropWhile_isBlankLine_eq_self_iff.mpr hfilled]

/-- A body that is finished keeps its lines up to the blank ones at the end. -/
theorem keeps_finish (body : Body) : Keeps body.lines body.finish := by
  have hsplit : body.finish ++ body.lines.rtakeWhile Text.isBlankLine = body.lines := by
    rw [finish_eq]
    exact List.rdropWhile_append_rtakeWhile
  have hfilled : Filled body.finish := by
    rw [finish_eq]
    exact rdropWhile_isBlankLine_eq_self_iff.mp (List.rdropWhile_idempotent _ _)
  have hblank : ∀ line ∈ body.lines.rtakeWhile Text.isBlankLine, Text.isBlankLine line :=
    fun line hline => List.mem_rtakeWhile_imp hline
  have hkeeps := Keeps.of_append hfilled hblank
  rwa [hsplit] at hkeeps

/-- Blank lines that meet in the body of a note are its first two. -/
theorem eq_zero_of_blankAt {place : ℕ} (hleast : IsLeast {count | EndMark lines count} count)
    (hkeeps : Keeps (lines.take count) kept) (hfirst : BlankAt kept place)
    (hsecond : BlankAt kept (place + 1)) : place = 0 := by
  by_contra hplace
  have hfront : kept <+: lines := hkeeps.front.trans (List.take_prefix count lines)
  have hmark : EndMark lines (place + 2) :=
    ⟨by omega, hfirst.of_prefix hfront, hsecond.of_prefix hfront⟩
  have hle := hleast.2 hmark
  have hlength := hkeeps.front.length_le
  have hroom := hsecond.lt_length
  rw [List.length_take] at hlength
  -- So the second of them is the last line that is kept, which is not blank.
  obtain ⟨line, hline, hblank⟩ := hsecond
  refine hkeeps.filled line ?_ hblank
  rw [List.getLast?_eq_getElem?]
  have hlast : kept.length - 1 = place + 1 := by omega
  rwa [hlast]

/-- Pushed lines are captured as they are, up to the first end mark. -/
theorem captured_up_to_mark (lines : List Text) : Captured lines where
  lines_eq := lines_pushAll
  answers_eq := answers_eq_map
  first_iff _ := findIdx?_answers
  keeps := by
    have hkeeps := keeps_finish (empty.pushAll lines)
    rwa [lines_pushAll, lines_empty, List.nil_append] at hkeeps
  apart index hfirst place := by
    have hkeeps := keeps_finish (empty.pushAll (lines.take (index + 1)))
    rw [lines_pushAll, lines_empty, List.nil_append] at hkeeps
    exact eq_zero_of_blankAt (findIdx?_answers.mp hfirst) hkeeps

/-- Blank lines that stand first end nothing before another one follows them. -/
example : (empty.answers [[], " ".toList, "a".toList, [], [], []]).findIdx? id = some 4 := by
  decide

end ReceiptNotes.Body
