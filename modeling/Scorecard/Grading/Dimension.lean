import Scorecard.Table
import Scorecard.Decode.Basic

/-!
# Dimensions

Every criterion belongs to one of three dimensions, which are listed in a fixed order.
-/

namespace Scorecard

/-- What a criterion is about. -/
inductive Dimension
  | codeQuality
  | testing
  | documentation
  deriving DecidableEq, Repr

namespace Dimension

/-- The dimensions in their order. -/
def all : List Dimension := [codeQuality, testing, documentation]

/-- The name in documents. -/
def key : Dimension → String
  | codeQuality => "code_quality"
  | testing => "testing"
  | documentation => "documentation"

/-- The name in reports. -/
def label : Dimension → String
  | codeQuality => "Code Quality"
  | testing => "Testing"
  | documentation => "Documentation"

/-- The dimension with the name `key` in documents. -/
def ofKey? (key : String) : Option Dimension := all.find? (·.key == key)

/-- The position in the order. -/
def rank : Dimension → Nat
  | codeQuality => 0
  | testing => 1
  | documentation => 2

/-- Dimensions are ordered as they are listed. -/
instance : Key Dimension where
  lt := fun a b => a.rank < b.rank
  decideLT := fun a b => inferInstanceAs (Decidable (a.rank < b.rank))
  irrefl := fun a => Nat.lt_irrefl a.rank
  trans := fun h h' => Nat.lt_trans h h'
  connected := fun {a b} h h' => by
    have hrank : a.rank = b.rank := Nat.le_antisymm (Nat.not_lt.1 h') (Nat.not_lt.1 h)
    cases a <;> cases b <;> first | rfl | exact absurd hrank (by decide)

/-- The dimensions by their names in documents. -/
def variants : List (String × Dimension) := all.map fun d => (d.key, d)

/-- Reads a dimension. -/
def decode : Decode.Decoder Dimension := Decode.variant variants

/-- Reads a table by dimensions. -/
def decodeTable {α : Type} (decode : Decode.Decoder α) : Decode.Decoder (Table Dimension α) :=
  Decode.tableBy (Decode.variantNamed variants) decode

/-- The dimension as a document. -/
def toJson (d : Dimension) : Json := .str d.key

end Dimension

end Scorecard
