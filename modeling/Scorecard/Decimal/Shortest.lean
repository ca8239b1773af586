import Scorecard.Decimal.Binary

/-!
# Shortest decimals

The shortest decimal of a positive number `m · 2 ^ q` is the one with the fewest digits
among those that read back as that number, and of these the nearest to it.

For each count of digits the decimals of that count form a grid, and if any of them reads
back, one of the number's two neighbours on the grid does. So it suffices to look at those
two, for one digit, for two, and so on up to seventeen, which always suffice.
-/

namespace Scorecard.Decimal

/-- Which of two equally near decimals is taken. -/
inductive Tie
  | up
  | even
  deriving DecidableEq, Repr

/-- The decimal `digits · 10 ^ exponent`. -/
structure Scientific where
  digits : Nat
  exponent : Int
  deriving DecidableEq, Repr

namespace Scientific

/-- Moves the zeros at the end of the digits into the exponent; `fuel` bounds their number. -/
def stripZeros : (fuel : Nat) → Scientific → Scientific
  | 0, d => d
  | fuel + 1, d =>
    if d.digits ≠ 0 ∧ d.digits % 10 = 0 then
      stripZeros fuel ⟨d.digits / 10, d.exponent + 1⟩
    else d

end Scientific

/-- A positive fraction together with the bounds between which decimals read back as it,
all three over the denominator `den`. -/
structure Spread where
  low : Nat
  value : Nat
  high : Nat
  den : Nat
  /-- Whether the bounds themselves read back. -/
  closed : Bool

namespace Spread

/-- The spread of `m · 2 ^ q`: half the way to the neighbours above and below, where the one
below a power of two is only half as far away. The bounds read back when `m` is even. -/
def ofBinary (m : Nat) (q : Int) : Spread :=
  let unit := Nat.pow 2 q.toNat
  let below := if m = Binary.leadingBit ∧ -1074 < q then 1 else 2
  { low := (4 * m - below) * unit
    value := 4 * m * unit
    high := (4 * m + 2) * unit
    den := 4 * Nat.pow 2 (-q).toNat
    closed := m % 2 = 0 }

/-- Numerator and denominator of `n · 10 ^ k` over the spread's denominator. -/
def scale (s : Spread) (n : Nat) (k : Int) : Nat × Nat :=
  (n * s.den * Nat.pow 10 k.toNat, Nat.pow 10 (-k).toNat)

/-- Whether `n · 10 ^ k` reads back. -/
def holds (s : Spread) (n : Nat) (k : Int) : Bool :=
  let (num, den) := s.scale n k
  if s.closed then s.low * den ≤ num && num ≤ s.high * den
  else s.low * den < num && num < s.high * den

/-- Whether `10 ^ e` is at most the value. -/
def reaches (s : Spread) (e : Int) : Bool :=
  let (num, den) := s.scale 1 e
  num ≤ s.value * den

/-- The exponent of the value's first digit, found from the number of its binary digits. -/
def firstExponent (s : Spread) : Int :=
  let bits : Int := (s.value.log2 : Int) - (s.den.log2 : Int)
  let guess := bits * 30103 / 100000
  if s.reaches (guess + 1) then guess + 1
  else if s.reaches guess then guess
  else guess - 1

/-- The largest `n` with `n · 10 ^ k` at most the value. -/
def floorAt (s : Spread) (k : Int) : Nat :=
  s.value * Nat.pow 10 (-k).toNat / (s.den * Nat.pow 10 k.toNat)

/-- The better of the neighbours `n` and `n + 1` on the grid of `10 ^ k`, if one reads back. -/
def choose (s : Spread) (tie : Tie) (k : Int) : Option Nat :=
  let n := s.floorAt k
  match s.holds n k, s.holds (n + 1) k with
  | false, false => none
  | true, false => some n
  | false, true => some (n + 1)
  | true, true =>
    let (num, den) := s.scale (2 * n + 1) k
    if 2 * s.value * den < num then some n
    else if num < 2 * s.value * den then some (n + 1)
    else match tie with
      | .up => some (n + 1)
      | .even => some (if n % 2 = 0 then n else n + 1)

/-- The first grid with a neighbour that reads back: the grid of `10 ^ k`, then the next finer
one, and so on for `fuel` further grids; after those the floor on the last one. -/
def search (s : Spread) (tie : Tie) : (fuel : Nat) → (k : Int) → Scientific
  | 0, k => ⟨(s.choose tie k).getD (s.floorAt k), k⟩
  | fuel + 1, k =>
    match s.choose tie k with
    | some n => ⟨n, k⟩
    | none => search s tie fuel (k - 1)

end Spread

/-- The shortest decimal of `m · 2 ^ q`, without zeros at its end. -/
def shortest (tie : Tie) (m : Nat) (q : Int) : Scientific :=
  if m = 0 then ⟨0, 0⟩
  else
    let s := Spread.ofBinary m q
    (s.search tie 16 s.firstExponent).stripZeros 20

end Scorecard.Decimal
