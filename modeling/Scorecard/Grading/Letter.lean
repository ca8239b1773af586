import Scorecard.Decode.Basic

/-!
# Letter grades

A percentage of 90 and above is an A, of 80 a B, of 70 a C and of 60 a D; anything else is an
F.
-/

namespace Scorecard

/-- A grade. -/
inductive Letter
  | a
  | b
  | c
  | d
  | f
  deriving DecidableEq, Repr

namespace Letter

/-- The grade of a percentage. -/
def ofPercentage (percentage : Float) : Letter :=
  if 90 ≤ percentage then a
  else if 80 ≤ percentage then b
  else if 70 ≤ percentage then c
  else if 60 ≤ percentage then d
  else f

/-- The letter. -/
def name : Letter → String
  | a => "A"
  | b => "B"
  | c => "C"
  | d => "D"
  | f => "F"

/-- The grades by their letters. -/
def variants : List (String × Letter) := [a, b, c, d, f].map fun g => (g.name, g)

/-- Reads a grade. -/
def decode : Decode.Decoder Letter := Decode.variant variants

/-- The grade as a document. -/
def toJson (g : Letter) : Json := .str g.name

end Letter

end Scorecard
