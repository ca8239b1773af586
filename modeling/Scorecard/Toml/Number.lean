import Scorecard.Toml.Scanner
import Scorecard.Json.Basic
import Scorecard.Text.Basic
import Scorecard.Decimal.Reading

/-!
# Numbers

Integers are decimal with an optional sign, or hexadecimal, octal or binary without one, and
must fit in 64 bits, signed. Other numbers have a fraction, an exponent or a name. Single
underscores may stand between digits.
-/

namespace Scorecard.Toml.Number

open Scanner Text

/-- The digits in front, after a first digit: single underscores between digits are dropped. -/
def moreDigits (p : Char → Bool) : List Char → List Char × List Char
  | '_' :: c :: rest =>
    if p c then
      let (ds, left) := moreDigits p rest
      (c :: ds, left)
    else ([], '_' :: c :: rest)
  | c :: rest =>
    if p c then
      let (ds, left) := moreDigits p rest
      (c :: ds, left)
    else ([], c :: rest)
  | [] => ([], [])

/-- One or more digits. -/
def digits (p : Char → Bool) : Scanner (List Char) := do
  let first ← satisfy p
  return first :: (← fun cs => some (moreDigits p cs))

/-- A sign, `true` for minus, if there is one. -/
def sign : Scanner Bool := do
  match ← peek? with
  | some '-' => char '-'; return true
  | some '+' => char '+'; return false
  | _ => return false

/-- A sign and decimal digits without superfluous zeros. -/
def decimal : Scanner (Bool × List Char) := do
  let negative ← sign
  if (← peek?) = some '0' then
    char '0'
    return (negative, ['0'])
  else return (negative, ← digits Char.isDigit)

/-- The integer `n` if it fits in 64 bits, signed. -/
def fitting (n : Int) : Scanner Json :=
  if h : -0x8000000000000000 ≤ n ∧ n ≤ 0x7FFFFFFFFFFFFFFF then
    return .num (.int n ⟨h.1, by omega⟩)
  else refuse

/-- Whether the character is a digit below eight. -/
def isOctal (c : Char) : Bool := '0' ≤ c && c ≤ '7'

/-- Whether the character is zero or one. -/
def isBinary (c : Char) : Bool := c == '0' || c == '1'

/-- An integer in the base that the letter after the zero names. -/
def based : Scanner Json := do
  char '0'
  let (base, isDigit) ← match ← peek? with
    | some 'x' => pure (16, Digit.isHex)
    | some 'o' => pure (8, isOctal)
    | some 'b' => pure (2, isBinary)
    | _ => refuse
  discard (satisfy fun _ => true)
  fitting (Digit.ofDigits base (← digits isDigit))

/-- A decimal integer. -/
def integer : Scanner Json := do
  let (negative, ds) ← decimal
  let n : Int := Digit.ofDigits 10 ds
  fitting (if negative then -n else n)

/-- An exponent. -/
def exponent : Scanner Int := do
  discard (satisfy fun c => c == 'e' || c == 'E')
  let negative ← sign
  let n : Int := Digit.ofDigits 10 (← digits Char.isDigit)
  return if negative then -n else n

/-- A number with a fraction, an exponent or both. Only one too small for binary64 numbers may
become an infinity. -/
def real : Scanner Json := do
  let (negative, whole) ← decimal
  let fraction ← attempt do char '.'; digits Char.isDigit
  let e ← if fraction.isSome then attempt exponent else some <$> exponent
  let ds := whole ++ fraction.getD []
  let places : Int := (fraction.getD []).length
  let x := Decimal.nearest (Digit.ofDigits 10 ds) (e.getD 0 - places)
  if x.isInf && !negative then refuse
  else return .num (.real (if negative then -x else x))

/-- An infinity or not-a-number. -/
def named : Scanner Json := do
  let negative ← sign
  let x ← (do literal ['i', 'n', 'f']; return Float.ofScientific 1 false 400)
    <|> (do literal ['n', 'a', 'n']; return 0.0 / 0.0)
  return .num (.real (if negative then -x else x))

/-- A number. -/
def number : Scanner Json := real <|> named <|> based <|> integer

end Scorecard.Toml.Number
