import Scorecard.Decimal.Shortest

/-!
# Layouts of numbers

A layout fixes how the shortest decimal of a number is set in text: where positional
notation ends, whether whole numbers carry a point, and which of two equally near
decimals is taken.

* `Layout.plain` is used in messages and summaries: always positional, no point in whole
  numbers.
* `Layout.pointed` is the same with a point in every number.
* `Layout.data` is used in documents: positional from `1e-5` up to below `1e16`.
* `fixedOne` writes one place after the point.
-/

namespace Scorecard.Decimal

/-- How a decimal is set in text. -/
structure Layout where
  tie : Tie
  /-- Least and greatest exponent of the first digit for which the decimal is written
  positionally; without bounds it always is. -/
  positional : Option (Int × Int)
  /-- Whether a whole number ends in `.0`. -/
  pointed : Bool

namespace Layout

/-- Numbers in messages are positional, and whole ones have no point. -/
def plain : Layout := ⟨.up, none, false⟩

/-- Numbers of a document that are named in messages are positional and have a point. -/
def pointedPlain : Layout := ⟨.up, none, true⟩

/-- Numbers in documents are positional from `1e-5` up to below `1e16` and have a point or an
exponent. -/
def data : Layout := ⟨.even, some (-5, 15), true⟩

/-- The decimal digits of `n`. -/
def digits (n : Nat) : List Char := Nat.toDigits 10 n

/-- Sets `ds · 10 ^ k` positionally. -/
def setPositional (pointed : Bool) (ds : List Char) (k : Int) : List Char :=
  if 0 ≤ k then
    ds ++ List.replicate k.toNat '0' ++ (if pointed then ['.', '0'] else [])
  else
    let places := (-k).toNat
    if places < ds.length then
      ds.take (ds.length - places) ++ '.' :: ds.drop (ds.length - places)
    else ['0', '.'] ++ List.replicate (places - ds.length) '0' ++ ds

/-- Sets `ds · 10 ^ k` with one digit before the point and the exponent with its sign. -/
def setScientific (ds : List Char) (k : Int) : List Char :=
  let e := k + (ds.length - 1 : Nat)
  let mantissa := match ds with
    | [] => []
    | [d] => [d]
    | d :: rest => d :: '.' :: rest
  mantissa ++ 'e' :: (if e < 0 then '-' else '+') :: digits e.natAbs

/-- Sets a decimal. -/
def setDecimal (l : Layout) (d : Scientific) : List Char :=
  let ds := digits d.digits
  let first := d.exponent + (ds.length - 1 : Nat)
  let positional := match l.positional with
    | none => true
    | some (least, greatest) => d.digits = 0 ∨ (least ≤ first ∧ first ≤ greatest)
  if positional then setPositional l.pointed ds d.exponent else setScientific ds d.exponent

/-- The number in this layout. Not-a-number and the infinities have names. -/
def write (l : Layout) (x : Float) : String :=
  match Binary.ofFloat x with
  | .nan => "NaN"
  | .infinite negative => if negative then "-inf" else "inf"
  | .finite negative m q =>
    let body := l.setDecimal (shortest l.tie m q)
    String.ofList (if negative then '-' :: body else body)

end Layout

/-- The number in messages. -/
def plain (x : Float) : String := Layout.plain.write x

/-- The number with one place after the point; the exact value is rounded, a half to even. -/
def fixedOne (x : Float) : String :=
  match Binary.ofFloat x with
  | .nan => "NaN"
  | .infinite negative => if negative then "-inf" else "inf"
  | .finite negative m q =>
    let tenths := Binary.nearestEven (10 * m * Nat.pow 2 q.toNat) (Nat.pow 2 (-q).toNat)
    let body := Layout.digits (tenths / 10) ++ '.' :: Layout.digits (tenths % 10)
    String.ofList (if negative then '-' :: body else body)

end Scorecard.Decimal
