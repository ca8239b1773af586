import Scorecard.Decode.Basic
import Scorecard.Decimal.Reading
import Scorecard.Text.Basic
import Scorecard.Calendar

/-!
# Timestamps

A timestamp is a date, a time of the day and an offset from the time of the prime meridian:
`2024-01-02T03:04:05.678+01:00`. It is read with some leniency. Blanks may stand in front of
every number and of every mark; numbers may leave out leading zeros; a small `t` or a blank may
stand for the `T`; `Z`, `z` or `UTC` may stand for the offset zero, and the colon inside an
offset may be left out.

* `Timestamp.read`: reads a timestamp or says what is wrong with it.
-/

namespace Scorecard

/-- A moment: a date, a time of the day and an offset, as they are written. -/
structure Timestamp where
  text : String
  deriving DecidableEq, Repr

namespace Timestamp

/-- What is wrong with a text that is no timestamp. -/
inductive Flaw
  /-- The text ends too early. -/
  | tooShort
  /-- Something else stands there than is needed. -/
  | strange
  /-- A number is not among those it may be, or the date is not in the calendar. -/
  | outOfRange
  /-- Something follows the offset. -/
  | tooLong
  /-- At the prime meridian it is a day that the calendar does not have. -/
  | impossible
  deriving DecidableEq, Repr

/-- The wording of a flaw. -/
def Flaw.message : Flaw → String
  | tooShort => "premature end of input"
  | strange => "input contains invalid characters"
  | outOfRange => "input is out of range"
  | tooLong => "trailing input"
  | impossible => "no possible date and time matching input"

/-- Takes a part of a timestamp off the front of a text. -/
abbrev Part (α : Type) := StateT (List Char) (Except Flaw) α

namespace Part

/-- Skips blanks. -/
def blanks : Part Unit := modify (·.dropWhile Text.isBlank)

/-- A natural number of at most `width` digits, or of any number of them. -/
def number (width : Option Nat) : Part Nat := do
  let cs ← get
  let reach := match width with
    | some w => cs.take w
    | none => cs
  match reach.takeWhile Char.isDigit with
  | [] => throw (if cs.isEmpty then .tooShort else .strange)
  | digits =>
    set (cs.drop digits.length)
    return Text.Digit.ofDigits 10 digits

/-- A number of at most two digits from `low` to `high`, after blanks. -/
def within (low high : Nat) : Part Nat := do
  blanks
  let n ← number (some 2)
  if low ≤ n ∧ n ≤ high then return n else throw .outOfRange

/-- The mark `c`. -/
def mark (c : Char) : Part Unit := do
  match ← get with
  | [] => throw .tooShort
  | first :: rest => if first = c then set rest else throw .strange

/-- The sign in front of a number of any width, if there is one: `true` for minus. -/
def sign? : Part (Option Bool) := do
  match ← get with
  | '-' :: rest => set rest; return some true
  | '+' :: rest => set rest; return some false
  | _ => return none

/-- A year: four digits, or a sign and any number of them. -/
def year : Part Int := do
  blanks
  let n : Int ← match ← sign? with
    | none => (fun n => (n : Int)) <$> number (some 4)
    | some false => (fun n => (n : Int)) <$> number none
    | some true => (fun n => -(n : Int)) <$> number none
  if -0x80000000 ≤ n ∧ n ≤ 0x7FFFFFFF then return n else throw .outOfRange

/-- A year, a month and a day; whether the calendar has them is not looked at. -/
def date : Part (Int × Nat × Nat) := do
  let y ← year
  blanks
  mark '-'
  let m ← within 1 12
  blanks
  mark '-'
  let d ← within 1 31
  return (y, m, d)

/-- What separates a date from its time. -/
def separator : Part Unit := do
  match ← get with
  | [] => throw .tooShort
  | c :: rest => if c = 'T' ∨ c = 't' ∨ c = ' ' then set rest else throw .strange

/-- A fraction of a second, if there is one. -/
def fraction : Part Unit := do
  match ← get with
  | '.' :: rest =>
    set rest
    discard (number (some 9))
    modify (·.dropWhile Char.isDigit)
  | _ => return ()

/-- A time of the day in whole seconds; a leap second counts as the one before it. -/
def time : Part Int := do
  let h ← within 0 23
  blanks
  mark ':'
  let m ← within 0 59
  blanks
  mark ':'
  let s ← within 0 60
  fraction
  blanks
  return (h * 60 + m) * 60 + min s 59

/-- Two digits. -/
def twoDigits : Part (Nat × Nat) := do
  match ← get with
  | a :: b :: rest =>
    if a.isDigit ∧ b.isDigit then
      set rest
      return (Decimal.digitValue a, Decimal.digitValue b)
    else throw .strange
  | [a] => throw (if 1 < a.utf8Size then .strange else .tooShort)
  | [] => throw .tooShort

/-- The sign of an offset, as a factor; the minus sign of typography counts too. -/
def offsetSign : Part Int := do
  match ← get with
  | [] => throw .tooShort
  | c :: rest =>
    if c = '+' then set rest; return 1
    else if c = '-' ∨ c = '\u2212' then set rest; return -1
    else throw .strange

/-- The sign, the hours up to ninety-nine and the minutes of an offset, in seconds. -/
def offsetDigits : Part Int := do
  let sign ← offsetSign
  let (h₁, h₂) ← twoDigits
  modify (·.dropWhile fun c => c == ':' || Text.isBlank c)
  let (m₁, m₂) ← twoDigits
  if m₁ < 6 then return sign * (((h₁ * 10 + h₂) * 60 + (m₁ * 10 + m₂)) * 60 : Nat)
  else throw .outOfRange

/-- An offset in seconds; it is positive in the east. -/
def offset : Part Int := do
  match ← get with
  | 'Z' :: rest | 'z' :: rest => set rest; return 0
  | cs =>
    if (cs.take 3).map Char.toUpper = "UTC".toList then
      set (cs.drop 3)
      return 0
    else offsetDigits

end Part

/-- Takes a timestamp off the front of a text. -/
def part : Part Unit := do
  let (year, month, day) ← Part.date
  Part.separator
  let second ← Part.time
  let offset ← Part.offset
  Part.blanks
  unless (← get).isEmpty do throw .tooLong
  unless Calendar.has year month day ∧ offset.natAbs < Calendar.daySeconds do throw .outOfRange
  unless Calendar.reaches year month day (second - offset) do throw .impossible

/-- Reads a timestamp. -/
def read (s : String) : Except Flaw Timestamp := (fun _ => ⟨s⟩) <$> part s.toList

/-- Reads a timestamp out of a document. -/
def decode : Decode.Decoder Timestamp :=
  (Decode.stringNamed "an RFC 3339 formatted date and time string").andThen fun s =>
    (read s).mapError fun flaw => .stated flaw.message

/-- The moment as a document. -/
def toJson (t : Timestamp) : Json := .str t.text

end Timestamp

end Scorecard
