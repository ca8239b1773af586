import Scorecard.Decode.Basic

/-!
# Confidence

How far a piece of evidence can be relied on.
-/

namespace Scorecard

/-- How far a piece of evidence can be relied on. -/
inductive Confidence
  | low
  | medium
  | high
  deriving DecidableEq, Repr

namespace Confidence

/-- The name in documents. -/
def name : Confidence → String
  | low => "low"
  | medium => "medium"
  | high => "high"

/-- The levels by their names. -/
def variants : List (String × Confidence) := [low, medium, high].map fun c => (c.name, c)

/-- Reads a level. -/
def decode : Decode.Decoder Confidence := Decode.variant variants

/-- The level as a document. -/
def toJson (c : Confidence) : Json := .str c.name

end Confidence

end Scorecard
