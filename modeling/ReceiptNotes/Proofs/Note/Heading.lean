import Mathlib.Data.List.Basic
import ReceiptNotes.Note.Basic
import ReceiptNotes.Proofs.Text.Numeral

/-! # The line with time and date

A note is headed by the time at the left edge and the date at the right edge. However
narrow the line is, the two can be told apart: the time has eight characters, and the date
begins with a digit, so whatever spaces are between them belong to neither. So the line
stands for one minute of one day (`Timestamp.headline_identifies_minute`).
-/

namespace ReceiptNotes

namespace Text

variable {left right left' right' : Text}

theorem justify_eq (left right : Text) (width : ℕ) :
    justify left right width =
      left ++ List.replicate (width - left.length - right.length) ' ' ++ right := by
  rw [justify, padStart, List.leftpad, List.append_assoc]

/-- The two sides of a justified line can be told apart if the first one has a known length
and the second one does not begin with a space. -/
theorem justify_inj (hlength : left.length = left'.length) (hright : right.head? ≠ some ' ')
    (hright' : right'.head? ≠ some ' ') (width : ℕ) :
    justify left right width = justify left' right' width ↔ left = left' ∧ right = right' := by
  -- What is behind the spaces is what is left when they are dropped.
  have hdrop : ∀ (count : ℕ) (text : Text), text.head? ≠ some ' ' →
      (List.replicate count ' ' ++ text).dropWhile (· = ' ') = text := by
    intro count text htext
    refine (span_append ?_ ?_).2
    · intro c hc
      simpa using List.eq_of_mem_replicate hc
    · intro c hc hspace
      exact htext (hc.trans (congrArg some (of_decide_eq_true hspace)))
  constructor
  · intro h
    rw [justify_eq, justify_eq, List.append_assoc, List.append_assoc] at h
    obtain ⟨hleft, hbehind⟩ := List.append_inj h hlength
    refine ⟨hleft, ?_⟩
    rw [← hdrop _ right hright, hbehind, hdrop _ right' hright']
  · rintro ⟨rfl, rfl⟩
    rfl

/-- A separator that is in neither of two fronts parts both texts at the same place. -/
theorem append_cons_inj {front behind front' behind' : Text} {separator : Char}
    (hfront : separator ∉ front) (hfront' : separator ∉ front') :
    front ++ separator :: behind = front' ++ separator :: behind' ↔
      front = front' ∧ behind = behind' := by
  have hspan : ∀ {before after : Text}, separator ∉ before →
      (before ++ separator :: after).takeWhile (· ≠ separator) = before ∧
        (before ++ separator :: after).dropWhile (· ≠ separator) = separator :: after := by
    intro before after hbefore
    refine span_append (fun c hc => ?_) (by simp)
    simpa using ne_of_mem_of_not_mem hc hbefore
  constructor
  · intro h
    refine ⟨?_, List.tail_eq_of_cons_eq (?_ : separator :: behind = separator :: behind')⟩
    · rw [← (hspan hfront).1, h, (hspan hfront').1]
    · rw [← (hspan hfront).2, h, (hspan hfront').2]
  · rintro ⟨rfl, rfl⟩
    rfl

theorem zeroPadded_decimal_inj {width m n : ℕ} :
    zeroPadded width (decimal m) = zeroPadded width (decimal n) ↔ m = n := by
  constructor
  · intro h
    have hvalue := decimalValue?_zeroPadded width m
    rw [h, decimalValue?_zeroPadded] at hvalue
    exact (Option.some.inj hvalue).symm
  · rintro rfl
    rfl

theorem decimal_inj {m n : ℕ} : decimal m = decimal n ↔ m = n :=
  ⟨fun h => by simpa using congrArg decimalValue? h, congrArg decimal⟩

theorem isDigit_of_mem_zeroPadded {width n : ℕ} {c : Char}
    (h : c ∈ zeroPadded width (decimal n)) : c.isDigit :=
  isDigit_of_decimalValue? (decimalValue?_zeroPadded width n) c h

/-- Two digits are enough for a number below a hundred. -/
theorem length_zeroPadded_two {n : ℕ} (h : n < 100) : (zeroPadded 2 (decimal n)).length = 2 := by
  have hshort : (decimal n).length ≤ 2 := (length_decimal_le_iff (by decide)).mpr (by omega)
  rw [zeroPadded, List.length_leftpad]
  omega

end Text

open Text (decimal zeroPadded zeroPadded_decimal_inj isDigit_of_mem_zeroPadded)

namespace Timestamp

variable {first second : Timestamp}

/-! ## The time -/

/-- The hour on a clock with twelve of them. -/
def clockHour (moment : Timestamp) : ℕ :=
  (moment.hour + 11) % 12 + 1

theorem length_hourText (moment : Timestamp) :
    (zeroPadded 2 (decimal moment.clockHour)).length = 2 := by
  apply Text.length_zeroPadded_two
  rw [clockHour]
  omega

theorem length_minuteText (moment : Timestamp) :
    (zeroPadded 2 (decimal moment.minute)).length = 2 := by
  have := moment.minute_lt
  exact Text.length_zeroPadded_two (by omega)

theorem length_timeText (moment : Timestamp) : moment.timeText.length = 8 := by
  have hhour := moment.length_hourText
  have hminute := moment.length_minuteText
  rw [clockHour] at hhour
  simp only [timeText, List.length_append, hhour, hminute]
  split <;> rfl

/-- Noon is no midnight, and one o'clock comes twice: the half of the day decides. -/
theorem timeText_inj :
    first.timeText = second.timeText ↔
      first.hour = second.hour ∧ first.minute = second.minute := by
  constructor
  · intro h
    simp only [timeText, List.append_assoc] at h
    obtain ⟨hhours, hbehind⟩ := List.append_inj h
      (first.length_hourText.trans second.length_hourText.symm)
    obtain ⟨-, hbehind⟩ := List.append_inj hbehind rfl
    obtain ⟨hminutes, hhalf⟩ := List.append_inj hbehind
      (first.length_minuteText.trans second.length_minuteText.symm)
    have hhour := zeroPadded_decimal_inj.mp hhours
    have hsame : first.hour < 12 ↔ second.hour < 12 := by
      by_cases hfirst : first.hour < 12
      · by_cases hsecond : second.hour < 12
        · exact iff_of_true hfirst hsecond
        · rw [if_pos hfirst, if_neg hsecond] at hhalf
          exact absurd hhalf (by decide)
      · by_cases hsecond : second.hour < 12
        · rw [if_neg hfirst, if_pos hsecond] at hhalf
          exact absurd hhalf (by decide)
        · exact iff_of_false hfirst hsecond
    have := first.hour_lt
    have := second.hour_lt
    exact ⟨by omega, zeroPadded_decimal_inj.mp hminutes⟩
  · rintro ⟨hhour, hminute⟩
    rw [timeText, timeText, hhour, hminute]

/-! ## The date -/

theorem space_not_mem_monthName (month : ℕ) : ' ' ∉ (monthName month).toList := by
  unfold monthName
  split <;> decide

theorem monthName_inj (first second : Timestamp) :
    monthName first.month = monthName second.month ↔ first.month = second.month := by
  have hnames : ∀ month < 13, ∀ other < 13, 0 < month → 0 < other →
      monthName month = monthName other → month = other := by decide
  have hfirst := first.month_mem
  have hsecond := second.month_mem
  exact ⟨hnames _ (by omega) _ (by omega) (by omega) (by omega), congrArg monthName⟩

/-- The year that a text stands for. -/
def yearValue? : Text → Option ℤ
  | '-' :: digits => (Text.decimalValue? digits).map fun (n : ℕ) => -(n : ℤ)
  | '+' :: digits => (Text.decimalValue? digits).map Nat.cast
  | digits => (Text.decimalValue? digits).map Nat.cast

/-- The sign of a year is no digit, so the digits of a year without one are its text. -/
theorem yearValue?_yearText (year : ℤ) : yearValue? (yearText year) = some year := by
  have hvalue := Text.decimalValue?_zeroPadded 4 year.natAbs
  rw [yearText]
  split
  · rw [yearValue?, hvalue, Option.map_some]
    congr 1
    omega
  split
  · rw [yearValue?, hvalue, Option.map_some]
    congr 1
    omega
  · have hdigits : ∀ {c : Char} {rest : Text}, c.isDigit = false →
        zeroPadded 4 (decimal year.natAbs) = c :: rest → False := by
      intro c rest hc heq
      have hmem : c ∈ zeroPadded 4 (decimal year.natAbs) := heq ▸ List.mem_cons_self
      simp [isDigit_of_mem_zeroPadded hmem] at hc
    rw [yearValue?, hvalue, Option.map_some]
    · congr 1
      omega
    · exact fun rest => hdigits rfl
    · exact fun rest => hdigits rfl

theorem dateText_inj :
    first.dateText = second.dateText ↔
      first.year = second.year ∧ first.month = second.month ∧ first.day = second.day := by
  constructor
  · intro h
    simp only [dateText, List.append_assoc, List.singleton_append] at h
    obtain ⟨hday, hbehind⟩ :=
      (Text.append_cons_inj (Text.not_mem_decimal rfl _) (Text.not_mem_decimal rfl _)).mp h
    obtain ⟨hmonth, hyear⟩ := (Text.append_cons_inj (space_not_mem_monthName _)
      (space_not_mem_monthName _)).mp hbehind
    refine ⟨?_, (monthName_inj first second).mp (String.toList_injective hmonth),
      Text.decimal_inj.mp hday⟩
    have hvalue := yearValue?_yearText first.year
    rw [hyear, yearValue?_yearText] at hvalue
    exact (Option.some.inj hvalue).symm
  · rintro ⟨hyear, hmonth, hday⟩
    rw [dateText, dateText, hyear, hmonth, hday]

theorem head?_dateText (moment : Timestamp) : moment.dateText.head? ≠ some ' ' := by
  obtain ⟨c, digits, hday⟩ := List.exists_cons_of_ne_nil (Text.decimal_ne_nil moment.day)
  have hdigit := Text.not_mem_decimal (c := ' ') rfl moment.day
  rw [hday, List.mem_cons, not_or] at hdigit
  simp [dateText, hday, Ne.symm hdigit.1]

/-! ## The line -/

/-- The line on which a note has its time and date. -/
def headline (moment : Timestamp) (columns : ℕ) : Text :=
  Text.justify moment.timeText moment.dateText columns

theorem headline_inj (columns : ℕ) :
    first.headline columns = second.headline columns ↔
      first.timeText = second.timeText ∧ first.dateText = second.dateText :=
  Text.justify_inj (first.length_timeText.trans second.length_timeText.symm)
    first.head?_dateText second.head?_dateText columns

/-- The line with time and date is the same for two moments if and only if they are in one
minute of one day, whatever the width. It has the time in eight characters at its left edge,
the date at its right edge and only spaces between, and it is as wide as the columns or its
parts need. It heads every note, on the printer as in the preview. -/
theorem headline_identifies_minute (first second : Timestamp) (columns : ℕ) :
    (first.headline columns = second.headline columns ↔
      first.year = second.year ∧ first.month = second.month ∧ first.day = second.day ∧
        first.hour = second.hour ∧ first.minute = second.minute) ∧
    (first.timeText.length = 8 ∧ ∃ gap,
      first.headline columns = first.timeText ++ List.replicate gap ' ' ++ first.dateText) ∧
    (first.headline columns).length =
      max columns (first.timeText.length + first.dateText.length) ∧
    ∀ subject body, ∃ before command, (Note.mk subject first body).header = before ++ [command] ∧
      command.preview columns = first.headline columns ++ ['\n'] ∧
      ∀ profile, command.operations profile =
        [.text (first.headline profile.width), .newline] := by
  refine ⟨?_, ⟨first.length_timeText, _, Text.justify_eq _ _ _⟩, Text.length_justify _ _ _,
    fun subject body => ⟨_, _, rfl, rfl, fun profile => rfl⟩⟩
  rw [headline_inj, timeText_inj, dateText_inj]
  tauto

end Timestamp

end ReceiptNotes
