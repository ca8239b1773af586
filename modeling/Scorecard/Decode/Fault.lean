import Scorecard.Json.Printer
import Scorecard.Text.Quoted

/-!
# Faults of documents

A document may be well formed and still not fit what it is read as. A `Fault` says in which
way, and `Fault.message` words it. A `Misreading` is either such a fault or the finding that
the text is no document at all.
-/

namespace Scorecard.Decode

/-- The form in which a document is read. -/
inductive Dialect
  /-- Data that is already in canonical form. -/
  | tree
  /-- JSON text, taken in the order in which it is written. -/
  | text
  /-- TOML text. -/
  | toml
  deriving DecidableEq, Repr

/-- What a document holds at some place. -/
inductive Found
  | null
  | bool (b : Bool)
  | number (n : Json.Number)
  | str (s : String)
  | sequence
  | map
  deriving DecidableEq

/-- What a document holds at its top. -/
def Found.of : Json → Found
  | .null => .null
  | .bool b => .bool b
  | .num n => .number n
  | .str s => .str s
  | .arr _ => .sequence
  | .obj _ => .map

/-- The way in which a document does not fit what it is read as. -/
inductive Fault
  | wrongType (found : Found) (expected : String)
  | wrongValue (found : Found) (expected : String)
  /-- An array of `n` items where a record needs others than that many. -/
  | wrongLength (n : Nat) (expected : String)
  | unknownVariant (name : String) (known : List String)
  | unknownField (name : String) (known : List String)
  | missingField (name : String)
  | duplicateField (name : String)
  /-- Something else than a variant where a variant is needed. -/
  | noVariant
  /-- Items after the last field of a record. -/
  | leftOver
  /-- A value of TOML that can name no variant. -/
  | noVariantName
  /-- A table that has to name one variant and names none. -/
  | variantMissing
  /-- A table that has to name one variant and names several. -/
  | variantNotSingle
  /-- Something else than a table after a variant's name; `kind` names it. -/
  | contentNoTable (kind : String)
  /-- A table with entries after a variant's name. -/
  | contentNotEmpty
  /-- A fault in the words of the type that is read. -/
  | stated (reason : String)
  deriving DecidableEq

/-- Names between backquotes. -/
def backquoted (name : String) : String := "`" ++ name ++ "`"

/-- How a document's number is worded. -/
def numberWords (d : Dialect) : Json.Number → String
  | .int n _ => "integer " ++ backquoted (String.ofList (Json.writeInt n))
  | .real x =>
    let layout : Decimal.Layout := match d with
      | .toml => .pointedPlain
      | _ => .data
    "floating point " ++ backquoted (layout.write x)

/-- How a finding is worded. -/
def Found.words (d : Dialect) : Found → String
  | null => "null"
  | bool b => "boolean " ++ backquoted (if b then "true" else "false")
  | number n => numberWords d n
  | str s => "string " ++ Text.quote s
  | sequence => "sequence"
  | map => "map"

/-- The choice among names. -/
def choiceWords : List String → String
  | [a] => "expected " ++ backquoted a
  | [a, b] => "expected " ++ backquoted a ++ " or " ++ backquoted b
  | names => "expected one of " ++ String.intercalate ", " (names.map backquoted)

/-- The wording of a fault. -/
def Fault.message (d : Dialect) : Fault → String
  | wrongType found expected => "invalid type: " ++ found.words d ++ ", expected " ++ expected
  | wrongValue found expected => "invalid value: " ++ found.words d ++ ", expected " ++ expected
  | wrongLength n expected => "invalid length " ++ toString n ++ ", expected " ++ expected
  | unknownVariant name known =>
    "unknown variant " ++ backquoted name ++ ", " ++ choiceWords known
  | unknownField name known =>
    "unknown field " ++ backquoted name ++ ", " ++ choiceWords known
  | missingField name => "missing field " ++ backquoted name
  | duplicateField name => "duplicate field " ++ backquoted name
  | noVariant => "expected value"
  | leftOver => "trailing characters"
  | noVariantName => "wanted string or table"
  | variantMissing => "wanted exactly 1 element, found 0 elements"
  | variantNotSingle => "wanted exactly 1 element, more than 1 element"
  | contentNoTable kind => "expected table, found " ++ kind
  | contentNotEmpty => "expected empty table"
  | stated reason => reason

/-- Why a text could not be read. -/
inductive Misreading
  /-- The text is no document at all. -/
  | noDocument
  /-- The document does not fit what it is read as. -/
  | misfit (d : Dialect) (fault : Fault)
  deriving DecidableEq

/-- The wording of a misfit; a text that is no document has none. -/
def Misreading.message? : Misreading → Option String
  | noDocument => none
  | misfit d fault => some (fault.message d)

/-- The wording of a misreading inside a longer message. -/
def Misreading.words (m : Misreading) : String := m.message?.getD "malformed document"

end Scorecard.Decode
