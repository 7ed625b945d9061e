import ReceiptNotes.Text.Numeral

/-! # Timestamps

Moments of the Gregorian calendar, extended before its introduction and to a year
zero and negative years, down to the second. The two texts of a moment are a time
on a twelve-hour clock and a date with the month's name.
-/

namespace ReceiptNotes

/-- Leap years: every fourth year, but of the full centuries only every fourth. -/
def isLeapYear (year : Int) : Bool :=
  year % 4 == 0 && (year % 100 != 0 || year % 400 == 0)

def daysInMonth (year : Int) (month : Nat) : Nat :=
  match month with
  | 2 => if isLeapYear year then 29 else 28
  | 4 | 6 | 9 | 11 => 30
  | _ => 31

/-- A moment that exists. Years are limited to about a quarter of a million on
either side of zero. -/
structure Timestamp where
  year : Int
  month : Nat
  day : Nat
  hour : Nat
  minute : Nat
  second : Nat
  year_mem : -262143 ≤ year ∧ year ≤ 262142
  month_mem : 1 ≤ month ∧ month ≤ 12
  day_mem : 1 ≤ day ∧ day ≤ daysInMonth year month
  hour_lt : hour < 24
  minute_lt : minute < 60
  second_lt : second < 60
  deriving DecidableEq

namespace Timestamp

def ofParts? (year : Int) (month day hour minute second : Nat) : Option Timestamp :=
  if h : (-262143 ≤ year ∧ year ≤ 262142) ∧ (1 ≤ month ∧ month ≤ 12) ∧
      (1 ≤ day ∧ day ≤ daysInMonth year month) ∧ hour < 24 ∧ minute < 60 ∧ second < 60 then
    some ⟨year, month, day, hour, minute, second, h.1, h.2.1, h.2.2.1, h.2.2.2.1,
      h.2.2.2.2.1, h.2.2.2.2.2⟩
  else none

instance : Inhabited Timestamp :=
  ⟨⟨1970, 1, 1, 0, 0, 0, by decide, by decide, by decide, by decide, by decide, by decide⟩⟩

def monthName : (month : Nat) → String
  | 1 => "January"
  | 2 => "February"
  | 3 => "March"
  | 4 => "April"
  | 5 => "May"
  | 6 => "June"
  | 7 => "July"
  | 8 => "August"
  | 9 => "September"
  | 10 => "October"
  | 11 => "November"
  | _ => "December"

/-- A year in at least four digits, with a sign unless it is one of the years from
zero to 9999. -/
def yearText (year : Int) : Text :=
  let digits := Text.zeroPadded 4 (Text.decimal year.natAbs)
  if year < 0 then '-' :: digits
  else if 9999 < year then '+' :: digits
  else digits

/-- The time in two digits each for hour and minute. Midnight and noon are twelve
o'clock. -/
def timeText (moment : Timestamp) : Text :=
  Text.zeroPadded 2 (Text.decimal ((moment.hour + 11) % 12 + 1)) ++ [':'] ++
    Text.zeroPadded 2 (Text.decimal moment.minute) ++
    (if moment.hour < 12 then " AM" else " PM").toList

/-- The day of the month, the month's name and the year. -/
def dateText (moment : Timestamp) : Text :=
  Text.decimal moment.day ++ [' '] ++ (monthName moment.month).toList ++ [' '] ++
    yearText moment.year

end Timestamp

end ReceiptNotes
