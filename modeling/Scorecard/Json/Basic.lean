import Scorecard.Table

/-!
# Structured data

`Json` is a document as it was written: the members of an object stand in their order, and
a name may stand twice. `Json.canonical` is the same data as a map: names in ascending
order, the last of several members of one name counting, and `null` for a number that is not
finite.

Numbers without point and exponent that fit in 64 bits, signed or unsigned, are integers;
all others are binary64 numbers.
-/

namespace Scorecard

/-- Whether the integer fits in 64 bits, signed or unsigned. -/
abbrev Json.FitsWord (n : Int) : Prop := -0x8000000000000000 ≤ n ∧ n ≤ 0xFFFFFFFFFFFFFFFF

/-- A number of a document. -/
inductive Json.Number
  /-- An integer that fits in 64 bits, signed or unsigned. -/
  | int (n : Int) (fits : Json.FitsWord n)
  | real (x : Float)
  deriving DecidableEq

/-- A document. -/
inductive Json
  | null
  | bool (b : Bool)
  | num (n : Json.Number)
  | str (s : String)
  | arr (items : List Json)
  | obj (members : List (String × Json))

namespace Json

instance : Inhabited Json := ⟨null⟩

/-- The name of the one member of an object that stands for a date. -/
def dateKey : String := "$__toml_private_datetime"

/-- The integer `n` as a number; beyond 64 bits the nearest binary64 number. -/
def Number.ofInt (n : Int) : Number :=
  if h : FitsWord n then .int n h
  else .real (if n < 0 then -Float.ofNat n.natAbs else Float.ofNat n.natAbs)

/-- A count as a number. -/
def Number.ofUInt64 (n : UInt64) : Number :=
  .int n.toNat ⟨by omega, by have := n.toNat_lt; omega⟩

/-- A count as a document. -/
def ofUInt64 (n : UInt64) : Json := .num (.ofUInt64 n)

/-- A natural number as a document. -/
def ofNat (n : Nat) : Json := .num (.ofInt n)

/-- A binary64 number as a document; there is no way to write one that is not finite. -/
def ofFloat (x : Float) : Json := if x.isFinite then .num (.real x) else .null

/-- A number as a document; there is no way to write one that is not finite. -/
def Number.toJson : Number → Json
  | .int n fits => .num (.int n fits)
  | .real x => ofFloat x

/-- The number as a binary64 number; an integer is rounded. -/
def Number.toFloat : Number → Float
  | .int n _ => if n < 0 then -Float.ofNat n.natAbs else Float.ofNat n.natAbs
  | .real x => x

/-- A value that may be missing, written as `null` then. -/
def ofOption {α : Type} (write : α → Json) : Option α → Json
  | none => null
  | some a => write a

/-- A list of values. -/
def ofList {α : Type} (write : α → Json) (as : List α) : Json := .arr (as.map write)

/-- A map as an object with its keys in ascending order. -/
def ofTable {κ α : Type} [Key κ] (name : κ → String) (write : α → Json) (t : Table κ α) : Json :=
  .obj (t.entries.map fun e => (name e.1, write e.2))

/-! ### Canonical form -/

mutual

/-- The same data as a map: members in ascending order of their names, each name once, and
`null` for a number that is not finite. -/
def canonical : Json → Json
  | arr items => .arr (canonicalItems items)
  | obj members => .obj (canonicalMembers members).entries
  | null => .null
  | bool b => .bool b
  | num n => n.toJson
  | str s => .str s

/-- The items in canonical form. -/
def canonicalItems : List Json → List Json
  | [] => []
  | v :: rest => canonical v :: canonicalItems rest

/-- The members in canonical form as a table; the last one of a name counts. -/
def canonicalMembers (members : List (String × Json)) : Table String Json :=
  canonicalInto .empty members

/-- Adds the members in canonical form to a table. -/
def canonicalInto (t : Table String Json) : List (String × Json) → Table String Json
  | [] => t
  | (name, v) :: rest => canonicalInto (t.insert name (canonical v)) rest

end

end Json

end Scorecard
