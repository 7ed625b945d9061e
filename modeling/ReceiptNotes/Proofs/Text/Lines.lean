import Mathlib.Data.List.Basic
import ReceiptNotes.Proofs.Text.Utf8
import ReceiptNotes.Text.Lines

/-! # Lines put together and cut again

A text that is put together of lines, each with a line break of its own behind it, is
cut into those lines again. A line must not hold a line feed, nor end in a carriage
return, which could not be told from the first half of a longer line break.
-/

namespace ReceiptNotes

namespace Lines

theorem getLast?_feed {α : Type} {lf : α} (line rest : List α) :
    (line ++ lf :: rest).getLast?.getD lf = rest.getLast?.getD lf := by
  rw [List.getLast?_append_cons, List.getLast?_cons]
  rfl

variable {α : Type} [DecidableEq α] {lf cr : α} {line : List α}

/-- The first piece of a stream ends with the first `lf`. -/
theorem pieces_line (hline : lf ∉ line) (rest : List α) :
    pieces lf (line ++ lf :: rest) = (line ++ [lf]) :: pieces lf rest := by
  induction line with
  | nil => rw [List.nil_append, pieces_cons, if_pos rfl, List.nil_append]
  | cons c line ih =>
      obtain ⟨hc, hlater⟩ := not_or.mp (mt List.mem_cons.mpr hline)
      rw [List.cons_append, pieces_cons, if_neg (Ne.symm hc), ih hlater]
      rfl

/-- A stream without `lf` is a single piece, unless it is empty. -/
theorem pieces_last (hline : lf ∉ line) (hne : line ≠ []) : pieces lf line = [line] := by
  induction line with
  | nil => contradiction
  | cons c line ih =>
      obtain ⟨hc, hlater⟩ := not_or.mp (mt List.mem_cons.mpr hline)
      rw [pieces_cons, if_neg (Ne.symm hc)]
      cases line with
      | nil => rfl
      | cons next line => rw [ih hlater (List.cons_ne_nil next line)]

/-- A stream is nothing, or a last line without a line break, or a line with its `lf` and
a stream behind it. -/
@[elab_as_elim]
theorem induction {motive : List α → Prop} (lf : α) (nil : motive [])
    (last : ∀ line, lf ∉ line → line ≠ [] → motive line)
    (feed : ∀ line rest, lf ∉ line → motive rest → motive (line ++ lf :: rest))
    (stream : List α) : motive stream := by
  induction hlength : stream.length using Nat.strongRecOn generalizing stream with
  | _ length ih =>
      by_cases hmem : lf ∈ stream
      · obtain ⟨line, rest, rfl, hline⟩ := List.eq_append_cons_of_mem hmem
        refine feed line rest hline (ih rest.length ?_ rest rfl)
        simp only [List.length_append, List.length_cons] at hlength
        omega
      · by_cases hne : stream = []
        · exact hne ▸ nil
        · exact last stream hmem hne

/-- Behind nothing or a line break, a stream is cut as if it began there. -/
theorem pieces_append {first : List α} (second : List α) (h : first.getLast?.getD lf = lf) :
    pieces lf (first ++ second) = pieces lf first ++ pieces lf second := by
  induction first using Lines.induction lf with
  | nil => rfl
  | last line hline hne =>
      rw [List.getLast?_eq_some_getLast hne, Option.getD_some] at h
      exact absurd (h ▸ List.getLast_mem hne) hline
  | feed line rest hline ih =>
      rw [List.append_assoc, List.cons_append, pieces_line hline, pieces_line hline,
        ih (getLast?_feed line rest ▸ h), List.cons_append]

/-- Pieces that are not the last ones are cut again from what they make together. -/
theorem pieces_flatten {stream : List α} {front behind : List (List α)}
    (h : pieces lf stream = front ++ behind) (hne : behind ≠ []) :
    pieces lf front.flatten = front := by
  induction stream using Lines.induction lf generalizing front with
  | nil =>
      obtain ⟨-, rfl⟩ := List.append_eq_nil_iff.mp h.symm
      contradiction
  | last line hline hempty =>
      rw [pieces_last hline hempty] at h
      rcases List.cons_eq_append_iff.mp h with ⟨rfl, -⟩ | ⟨later, -, hbehind⟩
      · rfl
      · obtain ⟨-, rfl⟩ := List.append_eq_nil_iff.mp hbehind.symm
        contradiction
  | feed line rest hline ih =>
      rw [pieces_line hline] at h
      rcases List.cons_eq_append_iff.mp h with ⟨rfl, -⟩ | ⟨later, rfl, hbehind⟩
      · rfl
      · rw [List.flatten_cons, List.append_assoc, List.singleton_append, pieces_line hline,
          ih hbehind]

theorem chomp_feed (hline : line.getLast? ≠ some cr) : chomp lf cr (line ++ [lf]) = line := by
  rcases List.eq_nil_or_concat line with rfl | ⟨front, last, rfl⟩
  · simp [chomp]
  · rw [List.concat_eq_append, List.getLast?_append, List.getLast?_singleton] at hline
    have hlast : last ≠ cr := by simpa using hline
    simp [chomp, hlast]

/-- Only one `cr` belongs to the line break. -/
theorem chomp_return_feed : chomp lf cr (line ++ [cr, lf]) = line := by
  simp [chomp]

theorem chomp_last (hline : lf ∉ line) : chomp lf cr line = line := by
  rcases List.eq_nil_or_concat line with rfl | ⟨front, last, rfl⟩
  · rfl
  · have hlast : last ≠ lf := by
      rintro rfl
      simp at hline
    simp [chomp, hlast]

theorem split_feed (hline : lf ∉ line) (rest : List α) :
    split lf cr (line ++ lf :: rest) = chomp lf cr (line ++ [lf]) :: split lf cr rest := by
  rw [split, pieces_line hline, List.map_cons, split]

theorem split_last (hline : lf ∉ line) (hne : line ≠ []) : split lf cr line = [line] := by
  rw [split, pieces_last hline hne, List.map_singleton, chomp_last hline]

theorem split_append {first : List α} (second : List α) (h : first.getLast?.getD lf = lf) :
    split lf cr (first ++ second) = split lf cr first ++ split lf cr second := by
  rw [split, pieces_append second h, List.map_append, split, split]

end Lines

/-- A text in UTF-8 has its line breaks where the text has them. -/
theorem Bytes.pieces_utf8 (text : Text) :
    Bytes.pieces (Text.utf8 text) = (Lines.pieces '\n' text).map Text.utf8 := by
  have hfree : ∀ line : Text, '\n' ∉ line → (0x0A : UInt8) ∉ Text.utf8 line :=
    fun line hline hmem => hline (Text.exists_of_mem_utf8 (by decide) hmem)
  induction text using Lines.induction '\n' with
  | nil => rfl
  | last line hline hne =>
      have hbytes : Text.utf8 line ≠ [] := by
        intro hempty
        exact hne (Text.utf8_injective hempty)
      rw [Bytes.pieces, Lines.pieces_last (hfree line hline) hbytes, Lines.pieces_last hline hne,
        List.map_singleton]
  | feed line rest hline ih =>
      have hbytes : Text.utf8 (line ++ '\n' :: rest) = Text.utf8 line ++ 0x0A :: Text.utf8 rest :=
        Text.utf8_append _ _
      rw [hbytes, Bytes.pieces, Lines.pieces_line (hfree line hline), Lines.pieces_line hline,
        List.map_cons, Text.utf8_append, ← Bytes.pieces, ih]
      rfl

/-- How a line that has been typed is ended. -/
inductive LineBreak where
  | feed
  | returnFeed
  deriving DecidableEq, Repr

def LineBreak.text : LineBreak → Text
  | feed => ['\n']
  | returnFeed => ['\r', '\n']

namespace Text

/-- What can be typed as one line. -/
def Typable (line : Text) : Prop :=
  '\n' ∉ line ∧ line.getLast? ≠ some '\r'

instance : DecidablePred Typable := fun _ => inferInstanceAs (Decidable (_ ∧ _))

/-- Lines typed one after the other, each ended by the line break of its place. -/
def typed (breaks : Nat → LineBreak) (lines : List Text) : Text :=
  (lines.mapIdx fun i line => line ++ (breaks i).text).flatten

theorem typed_cons (breaks : Nat → LineBreak) (line : Text) (lines : List Text) :
    typed breaks (line :: lines) =
      line ++ (breaks 0).text ++ typed (fun i => breaks (i + 1)) lines := by
  rw [typed, List.mapIdx_cons, List.flatten_cons, typed]

/-- A line break ends with the only line feed of its line. -/
theorem exists_typed_line {line : Text} (hline : line.Typable) (lineBreak : LineBreak) :
    ∃ front, line ++ lineBreak.text = front ++ ['\n'] ∧ '\n' ∉ front := by
  cases lineBreak with
  | feed => exact ⟨line, rfl, hline.1⟩
  | returnFeed => exact ⟨line ++ ['\r'], by simp [LineBreak.text], by simp [hline.1]⟩

theorem chomp_typed_line {line : Text} (hline : line.Typable) (lineBreak : LineBreak) :
    Lines.chomp '\n' '\r' (line ++ lineBreak.text) = line := by
  cases lineBreak with
  | feed => exact Lines.chomp_feed hline.2
  | returnFeed => exact Lines.chomp_return_feed

theorem lines_typed_line {line : Text} (hline : line.Typable) (lineBreak : LineBreak)
    (rest : Text) : lines (line ++ lineBreak.text ++ rest) = line :: lines rest := by
  obtain ⟨front, hfront, hfeed⟩ := exists_typed_line hline lineBreak
  rw [hfront, List.append_assoc, List.singleton_append, lines, Lines.split_feed hfeed, ← hfront,
    chomp_typed_line hline, lines]

/-- Typed lines are cut into these lines again. -/
theorem lines_typed (breaks : Nat → LineBreak) {typedLines : List Text}
    (hlines : ∀ line ∈ typedLines, line.Typable) :
    lines (typed breaks typedLines) = typedLines := by
  induction typedLines generalizing breaks with
  | nil => rfl
  | cons line later ih =>
      obtain ⟨hline, hlater⟩ := List.forall_mem_cons.mp hlines
      rw [typed_cons, lines_typed_line hline, ih _ hlater]

/-- A text with a line break behind its last line, whether it has had one or not. -/
def ended (text : Text) : Text :=
  if text.getLast?.getD '\n' = '\n' then text else text ++ ['\n']

theorem ended_feed (line rest : Text) :
    ended (line ++ '\n' :: rest) = line ++ '\n' :: ended rest := by
  unfold ended
  rw [Lines.getLast?_feed]
  split
  · rfl
  · rw [List.append_assoc, List.cons_append]

theorem ended_last {line : Text} (hline : '\n' ∉ line) (hne : line ≠ []) :
    ended line = line ++ ['\n'] := by
  rw [ended, List.getLast?_eq_some_getLast hne, Option.getD_some, if_neg]
  intro hfeed
  exact hline (hfeed ▸ List.getLast_mem hne)

theorem ended_ends (text : Text) : (ended text).getLast?.getD '\n' = '\n' := by
  unfold ended
  split
  next hends => exact hends
  · rw [Lines.getLast?_feed]
    rfl

/-- The missing line break makes no difference to the lines, unless it would take a
carriage return with it. -/
theorem lines_ended {text : Text} (h : text.getLast? ≠ some '\r') :
    lines (ended text) = lines text := by
  induction text using Lines.induction '\n' with
  | nil => rfl
  | last line hline hne =>
      rw [ended_last hline hne, lines, Lines.split_feed hline, Lines.chomp_feed h, lines,
        Lines.split_last hline hne]
      rfl
  | feed line rest hline ih =>
      have hrest : rest.getLast? ≠ some '\r' := by
        intro hreturn
        apply h
        rw [List.getLast?_append_cons, List.getLast?_cons, hreturn]
        rfl
      rw [ended_feed, lines, lines, Lines.split_feed hline, Lines.split_feed hline]
      exact congrArg _ (ih hrest)

end Text

end ReceiptNotes
