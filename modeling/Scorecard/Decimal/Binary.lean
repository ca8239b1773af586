/-!
# Binary numbers taken apart

A finite binary64 number is a sign and `m · 2 ^ q` for natural `m` and integer `q`.
`Binary.ofFloat` reads the parts off the bits, so that texts and roundings of numbers
are computed in exact natural arithmetic.

* `Binary.round`: to the nearest whole number, halves away from zero.
-/

namespace Scorecard.Decimal

/-- The parts of a binary64 number. -/
inductive Binary
  | nan
  | infinite (negative : Bool)
  /-- The number `m · 2 ^ q`, or its negative. -/
  | finite (negative : Bool) (m : Nat) (q : Int)
  deriving DecidableEq, Repr

namespace Binary

/-- The bit above the fifty-two of the fraction: the first digit of a number that is not tiny. -/
def leadingBit : Nat := 0x10000000000000

/-- The parts as the bits of the number give them: one sign bit, eleven of exponent and
fifty-two of fraction. -/
def ofBits (bits : Nat) : Binary :=
  let negative := decide (0x8000000000000000 ≤ bits)
  let exponent : Nat := bits / leadingBit % 0x800
  let fraction : Nat := bits % leadingBit
  if exponent = 2047 then if fraction = 0 then .infinite negative else .nan
  else if exponent = 0 then .finite negative fraction (-1074)
  else .finite negative (leadingBit + fraction) ((exponent : Int) - 1075)

/-- The parts of `x`. -/
def ofFloat (x : Float) : Binary := ofBits x.toBits.toNat

/-- The quotient to the nearest whole number; a half goes up. -/
def nearestUp (num den : Nat) : Nat := (2 * num + den) / (2 * den)

/-- The quotient to the nearest whole number; a half goes to the even neighbour. -/
def nearestEven (num den : Nat) : Nat :=
  let n := num / den
  let twice := 2 * (num % den)
  if twice < den then n
  else if den < twice then n + 1
  else if n % 2 = 0 then n else n + 1

/-- `x` with the given sign. -/
def signed (negative : Bool) (x : Float) : Float := if negative then -x else x

/-- The nearest whole number; a half goes away from zero, and a number keeps its sign even
where it becomes zero. -/
def round (x : Float) : Float :=
  match ofFloat x with
  | .finite negative m q =>
    if 0 ≤ q then x else signed negative (Float.ofNat (nearestUp m (Nat.pow 2 q.natAbs)))
  | _ => x

end Binary

end Scorecard.Decimal
