import Scorecard.Toml.Number
import Scorecard.Calendar

/-!
# Dates and times

A date, a time, or both with or without an offset. They are kept as text in one form: `T`
between date and time, `Z` or hours and minutes for the offset, and a fraction of at most
nine digits without zeros at its end.
-/

namespace Scorecard.Toml.Date

open Scanner

/-- Exactly `n` digits. -/
def fixed : (n : Nat) → Scanner (List Char)
  | 0 => return []
  | n + 1 => do
    let d ← satisfy Char.isDigit
    return d :: (← fixed n)

/-- Exactly `n` digits that write a number from `low` to `high`. -/
def within (n low high : Nat) : Scanner (List Char) := do
  let ds ← fixed n
  let value := Text.Digit.ofDigits 10 ds
  if low ≤ value ∧ value ≤ high then return ds else refuse

/-- A day of the calendar. -/
def day : Scanner (List Char) := do
  let year ← fixed 4
  char '-'
  let month ← within 2 1 12
  char '-'
  let day ← within 2 1
    (Calendar.daysOf (Text.Digit.ofDigits 10 year) (Text.Digit.ofDigits 10 month))
  return year ++ '-' :: month ++ '-' :: day

/-- The digits without zeros at their end. -/
def trimZeros (ds : List Char) : List Char := (ds.reverse.dropWhile (· == '0')).reverse

/-- A fraction of a second, if there is one; digits after the ninth are dropped. -/
def fraction : Scanner (List Char) := do
  if (← peek?) = some '.' then
    char '.'
    let ds ← takeWhile1 Char.isDigit
    match trimZeros (ds.take 9) with
    | [] => return []
    | kept => return '.' :: kept
  else return []

/-- A time of the day. -/
def time : Scanner (List Char) := do
  let hour ← within 2 0 23
  char ':'
  let minute ← within 2 0 59
  char ':'
  let second ← within 2 0 60
  return hour ++ ':' :: minute ++ ':' :: second ++ (← fraction)

/-- An offset, if there is one. -/
def offset : Scanner (List Char) := do
  match ← peek? with
  | some 'Z' => char 'Z'; return ['Z']
  | some 'z' => char 'z'; return ['Z']
  | some c =>
    if c = '+' ∨ c = '-' then
      char c
      let hour ← within 2 0 23
      char ':'
      let minute ← within 2 0 59
      let zero := Text.Digit.ofDigits 10 (hour ++ minute) = 0
      return (if zero then '+' else c) :: hour ++ ':' :: minute
    else return []
  | none => return []

/-- A time after the mark that separates it from its date. -/
def timeOfDay : Scanner (List Char) := do
  discard (satisfy fun c => c == 'T' || c == 't' || c == ' ')
  let t ← time
  return 'T' :: t ++ (← offset)

/-- A day with or without a time. -/
def dayAndTime : Scanner (List Char) := do
  let d ← day
  return d ++ (← attempt timeOfDay).getD []

/-- A date, a time or both, in its one form. -/
def date : Scanner String := String.ofList <$> (dayAndTime <|> time)

end Scorecard.Toml.Date
