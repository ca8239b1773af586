import Scorecard.Decimal.Binary
import Scorecard.Decode.Basic

/-!
# Points and statuses

Points are binary64 numbers. They are added from left to right, and two amounts count as equal
when they differ by less than a billionth of a point. A percentage has two places.

A criterion is met, partly met or unmet, and its status alone fixes its score: all of its
points, half of them, or none.
-/

namespace Scorecard

namespace Points

/-- The difference from which on two amounts of points differ. -/
def tolerance : Float := 1e-9

/-- Whether two amounts of points count as equal. -/
def same (a b : Float) : Bool := (a - b).abs < tolerance

/-- The sum from left to right. The sum of nothing is the neutral element, negative zero. -/
def total (amounts : List Float) : Float := amounts.foldl (· + ·) (-0.0)

/-- The number with two places; a half goes away from zero. -/
def toHundredths (x : Float) : Float := Decimal.Binary.round (x * 100) / 100

/-- What share of `max` the score is, in percent; nothing of nothing. -/
def percentage (score max : Float) : Float :=
  if max ≤ 0 then 0 else toHundredths (score / max * 100)

end Points

/-- How far a criterion is met. -/
inductive Status
  | met
  | partly
  | unmet
  deriving DecidableEq, Repr

namespace Status

/-- The name in documents and messages. -/
def name : Status → String
  | met => "met"
  | partly => "partial"
  | unmet => "unmet"

/-- The score of a criterion worth `maxPoints`. -/
def points (s : Status) (maxPoints : Float) : Float :=
  match s with
  | met => maxPoints
  | partly => maxPoints / 2
  | unmet => 0

/-- Whether the score is the one that the status fixes. -/
def isConsistent (s : Status) (score maxPoints : Float) : Bool :=
  Points.same score (s.points maxPoints)

/-- The status of a measurement: met, or else partly met where there is a threshold for that
and it is passed. -/
def ofTests (met : Bool) (partly : Option Bool) : Status :=
  if met then .met else if partly = some true then .partly else .unmet

/-- The statuses by their names. -/
def variants : List (String × Status) :=
  [met, partly, unmet].map fun s => (s.name, s)

/-- Reads a status. -/
def decode : Decode.Decoder Status := Decode.variant variants

/-- The status as a document. -/
def toJson (s : Status) : Json := .str s.name

end Status

end Scorecard
