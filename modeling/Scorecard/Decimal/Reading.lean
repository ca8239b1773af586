import Scorecard.Decimal.Layout

/-!
# Reading decimals

In some documents a number is read as a significand and a power of ten. The significand is
kept in 64 bits: once another digit would not fit, that digit and all later ones are
dropped. The number is then the significand, rounded to binary64, multiplied or divided by
the power of ten, rounded again. A result beyond the greatest number is refused.

In others a decimal is read as the binary64 number nearest to it. Beyond the greatest number
that is an infinity, and below half the least positive one it is zero.

* `Decimal.scaled`: the number read with two roundings.
* `Decimal.nearest`: the number read with one.
-/

namespace Scorecard.Decimal

/-! ### Significands and powers of ten -/

/-- The value of a decimal digit. -/
def digitValue (c : Char) : Nat := c.toNat - '0'.toNat

/-- Takes digits into the significand as long as it stays below `2 ^ 64`; gives the
significand and the digits that were not taken. -/
def absorb (significand : Nat) : List Char → Nat × List Char
  | [] => (significand, [])
  | c :: rest =>
    let next := significand * 10 + digitValue c
    if next < 0x10000000000000000 then absorb next rest else (significand, c :: rest)

/-- The power of ten as the nearest binary64 number. -/
def powerOfTen (e : Nat) : Float := Float.ofScientific 1 false e

/-- Divides by `10 ^ e`, in steps of `10 ^ 308` until the rest is at most `308` or nothing is
left. -/
def divideByPower (x : Float) (e : Nat) : Float :=
  if e ≤ 308 then x / powerOfTen e
  else if x == 0 then x
  else divideByPower (x / powerOfTen 308) (e - 308)
termination_by e

/-- The number `significand · 10 ^ e`; none if it lies beyond the greatest number. -/
def scaled (significand : Nat) (e : Int) : Option Float :=
  let x := Float.ofNat significand
  match e with
  | .ofNat n =>
    if n ≤ 308 then
      let y := x * powerOfTen n
      if y.isInf then none else some y
    else if x == 0 then some x else none
  | .negSucc n => some (divideByPower x (n + 1))

/-! ### The nearest number -/

/-- The binary64 number nearest to `n · 10 ^ e`. Decimals far outside the range of binary64
numbers are decided by the exponent of their first digit. -/
def nearest (n : Nat) (e : Int) : Float :=
  let first := e + (Layout.digits n).length
  if n = 0 ∨ first < -330 then 0
  else if 310 < first then Float.ofScientific 1 false 400
  else match e with
    | .ofNat k => Float.ofScientific n false k
    | .negSucc k => Float.ofScientific n true (k + 1)

end Scorecard.Decimal
