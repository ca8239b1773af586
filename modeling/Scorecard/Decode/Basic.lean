import Scorecard.Decode.Fault
import Scorecard.Json.Form

/-!
# Decoders

A decoder reads a value of some type out of a document, or finds the first fault. It also
tells which parts of a document it looks at; those it does not look at may hold anything. Here
stand the decoders of scalars, lists, options, tables and variants.
-/

namespace Scorecard.Decode

/-- Reads a value out of a document of some dialect. -/
structure Decoder (α : Type) where
  /-- What the decoder looks at. -/
  scope : Json.Scope
  run : Dialect → Json → Except Fault α

namespace Decoder

variable {α β : Type}

instance : CoeFun (Decoder α) fun _ => Dialect → Json → Except Fault α := ⟨run⟩

/-- A decoder that looks at all of a document. -/
def whole (run : Dialect → Json → Except Fault α) : Decoder α := ⟨.whole, run⟩

/-- Reads a value and makes another of it, or finds a fault in it. -/
def andThen (decode : Decoder α) (f : α → Except Fault β) : Decoder β where
  scope := decode.scope
  run d v := decode d v >>= f

/-- Reads a value and makes another of it. -/
def map (f : α → β) (decode : Decoder α) : Decoder β where
  scope := decode.scope
  run d v := f <$> decode d v

end Decoder

/-! ### Scalars -/

/-- The fault of holding something else than `expected`. -/
def mismatch {α : Type} (v : Json) (expected : String) : Except Fault α :=
  .error (.wrongType (.of v) expected)

/-- A string, called `expected` in faults. -/
def stringNamed (expected : String) : Decoder String := .whole fun
  | _, .str s => .ok s
  | _, v => mismatch v expected

/-- A string. -/
def string : Decoder String := stringNamed "a string"

/-- A path. -/
def path : Decoder String := stringNamed "path string"

/-- A truth value. -/
def boolean : Decoder Bool := .whole fun
  | _, .bool b => .ok b
  | _, v => mismatch v "a boolean"

/-- A binary64 number. -/
def float : Decoder Float := .whole fun
  | _, .num n => .ok n.toFloat
  | _, v => mismatch v "f64"

/-- A natural number below `bound`, called `expected` in faults. -/
def natBelow (bound : Nat) (expected : String) : Decoder Nat := .whole fun
  | _, .num (.int n fits) =>
    if 0 ≤ n ∧ n < bound then .ok n.toNat
    else .error (.wrongValue (.number (.int n fits)) expected)
  | _, v => mismatch v expected

/-- A count of 64 bits. -/
def count : Decoder UInt64 := (natBelow UInt64.size "u64").map UInt64.ofNat

/-- A number of 32 bits. -/
def word : Decoder UInt32 := (natBelow UInt32.size "u32").map UInt32.ofNat

/-- A size. -/
def size : Decoder Nat := natBelow UInt64.size "usize"

/-- Any document, in canonical form. -/
def payload : Decoder Json := .whole fun _ v => .ok v.canonical

/-! ### Compounds -/

/-- A value or `null`. -/
def optional {α : Type} (decode : Decoder α) : Decoder (Option α) where
  scope := decode.scope
  run
    | _, .null => .ok none
    | d, v => some <$> decode d v

/-- A list; the first faulty item counts. -/
def list {α : Type} (decode : Decoder α) : Decoder (List α) where
  scope := .items decode.scope
  run
    | d, .arr items => items.mapM (decode d)
    | _, v => mismatch v "a sequence"

/-- A table whose keys are read off names; of several equal keys the last one counts. -/
def tableBy {κ α : Type} [Key κ] (key : String → Except Fault κ) (decode : Decoder α) :
    Decoder (Table κ α) where
  scope := .members decode.scope
  run
    | d, .obj members =>
      members.foldlM (fun t m => do
        let k ← key m.1
        return t.insert k (← decode d m.2)) .empty
    | _, v => mismatch v "a map"

/-- A table by names; of several equal names the last one counts. -/
def table {α : Type} (decode : Decoder α) : Decoder (Table String α) := tableBy .ok decode

/-! ### Variants -/

/-- The kind of a TOML value. -/
def tomlKind : Json → String
  | .null => "none"
  | .bool _ => "boolean"
  | .num (.int ..) => "integer"
  | .num (.real _) => "float"
  | .str _ => "string"
  | .arr _ => "array"
  | .obj [(name, _)] => if name = Json.dateKey then "datetime" else "table"
  | .obj _ => "table"

/-- The variant called `name` among `variants`. -/
def variantNamed {α : Type} (variants : List (String × α)) (name : String) : Except Fault α :=
  match variants.find? (·.1 == name) with
  | some (_, a) => .ok a
  | none => .error (.unknownVariant name (variants.map (·.1)))

/-- Checks that nothing stands beside a variant's name. -/
def noContent (d : Dialect) (v : Json) : Except Fault Unit :=
  match d, v with
  | .toml, .obj [] => .ok ()
  | .toml, .obj (m :: rest) =>
    if tomlKind (.obj (m :: rest)) = "table" then .error .contentNotEmpty
    else .error (.contentNoTable (tomlKind (.obj (m :: rest))))
  | .toml, v => .error (.contentNoTable (tomlKind v))
  | _, .null => .ok ()
  | _, v => mismatch v "unit"

/-- One of the variants: its name, or an object with its name and no content. -/
def variant {α : Type} (variants : List (String × α)) : Decoder α := .whole fun
  | _, .str name => variantNamed variants name
  | .tree, .obj [(name, v)] => do
    let a ← variantNamed variants name
    noContent .tree v
    return a
  | .tree, .obj members => .error (.wrongValue (.of (.obj members)) "map with a single key")
  | .tree, v => mismatch v "string or map"
  | .text, .obj ((name, v) :: rest) => do
    let a ← variantNamed variants name
    noContent .text v
    if rest.isEmpty then return a else .error .noVariant
  | .text, _ => .error .noVariant
  | .toml, .obj [] => .error .variantMissing
  | .toml, .obj [(name, v)] => do
    if name = Json.dateKey then .error .noVariantName
    let a ← variantNamed variants name
    noContent .toml v
    return a
  | .toml, .obj _ => .error .variantNotSingle
  | .toml, _ => .error .noVariantName

end Scorecard.Decode
