/-!
# The calendar

How long months are. Every fourth year is a leap year, except that of the years that end a
century only every fourth is one; the rule is carried on to all years, before the first too.

Moments are only counted between a first and a last year, so that a time of the day may lie before
the first or after the last day once its offset is taken away.

* `daysOf_pos`, `daysOf_le`: a month has some days and at most 31.
* `has`: whether there is a day, `reaches`: whether there is a moment.
-/

namespace Scorecard.Calendar

/-- Whether February has a twenty-ninth day. -/
def isLeap (year : Int) : Bool := year % 4 = 0 && (year % 100 ≠ 0 || year % 400 = 0)

/-- The number of days of a month, the months counted from one. -/
def daysOf (year : Int) (month : Nat) : Nat :=
  if month = 2 then if isLeap year then 29 else 28
  else if month = 4 ∨ month = 6 ∨ month = 9 ∨ month = 11 then 30
  else 31

/-- Every month has a day. -/
theorem daysOf_pos (year : Int) (month : Nat) : 0 < daysOf year month := by
  unfold daysOf
  repeat' split
  all_goals decide

/-- No month has more than 31 days. -/
theorem daysOf_le (year : Int) (month : Nat) : daysOf year month ≤ 31 := by
  unfold daysOf
  repeat' split
  all_goals decide

/-- The first year of the calendar. -/
def firstYear : Int := -262143

/-- The last year of the calendar. -/
def lastYear : Int := 262142

/-- The seconds of a day. -/
def daySeconds : Nat := 86400

/-- Whether the calendar has the day. -/
def has (year : Int) (month day : Nat) : Bool :=
  firstYear ≤ year && year ≤ lastYear && day ≤ daysOf year month

/-- Whether the calendar still has the day when the clock shows `second`, which is below zero
on the day before and at least `daySeconds` on the day after. -/
def reaches (year : Int) (month day : Nat) (second : Int) : Bool :=
  !(second < 0 && year == firstYear && month == 1 && day == 1) &&
    !(daySeconds ≤ second && year == lastYear && month == 12 && day == 31)

end Scorecard.Calendar
