import Scorecard.Decode.Basic
import Scorecard.Json.Reader

/-!
# Records

A record is read from an object, whose members may stand in any order, or from an array of
its fields in their order. `Record` describes the fields one after another, so that
`Record.make f |>.required … |>.defaulted …` lists them as the constructor `f` takes them.

Of several faults the one that comes first in the document counts; only after the last
member is the first missing field looked for.
-/

namespace Scorecard.Decode

/-- The fields of a record from which a value of type `α` is made. -/
structure Record (α : Type) where
  /-- The names of the fields in their order, and what is looked at in each. -/
  fields : List (String × Json.Scope)
  /-- What has been read of the fields so far. -/
  State : Type
  /-- Nothing has been read. -/
  start : State
  /-- Takes one member; none if no field has its name. -/
  take : Dialect → State → String → Json → Option (Except Fault State)
  /-- The value, once all members are taken. -/
  finish : State → Except Fault α
  /-- Reads the fields from items in their order and gives the items left over; `expected`
  words how many a faulty array should have. -/
  items : Dialect → (expected : String) → List Json → Except Fault (α × List Json)

namespace Record

variable {α β : Type}

/-- A record without fields. -/
def make (a : α) : Record α where
  fields := []
  State := Unit
  start := ()
  take := fun _ _ _ _ => none
  finish := fun _ => .ok a
  items := fun _ _ items => .ok (a, items)

/-- A value, or the fault if there is none. -/
def orFault (fault : Fault) : Option α → Except Fault α
  | some a => .ok a
  | none => .error fault

/-- Adds a field. `inObject` and `inArray` stand for it where it is left out of an object or
of the end of an array. -/
def field (r : Record (α → β)) (name : String) (decode : Decoder α)
    (inObject inArray : Option α) : Record β where
  fields := r.fields ++ [(name, decode.scope)]
  State := r.State × Option α
  start := (r.start, none)
  take := fun d s key v =>
    if key = name then
      some (if s.2.isSome then .error (.duplicateField name)
        else (decode d v).map fun a => (s.1, some a))
    else (r.take d s.1 key v).map fun result => result.map fun s' => (s', s.2)
  finish := fun s => do
    let f ← r.finish s.1
    let a ← orFault (.missingField name) (s.2 <|> inObject)
    return f a
  items := fun d expected items => do
    let (f, rest) ← r.items d expected items
    match rest with
    | v :: rest => return (f (← decode d v), rest)
    | [] => return (f (← orFault (.wrongLength r.fields.length expected) inArray), [])

/-- A field that has to be there. -/
def required (r : Record (α → β)) (name : String) (decode : Decoder α) : Record β :=
  r.field name decode none none

/-- A field that stands for `a` where it is left out. -/
def defaulted (r : Record (α → β)) (name : String) (decode : Decoder α) (a : α) : Record β :=
  r.field name decode (some a) (some a)

/-- A field whose value may be `null`, and which may be left out of an object. -/
def nullable (r : Record (Option α → β)) (name : String) (decode : Decoder α) : Record β :=
  r.field name (optional decode) (some none) none

/-- The names of the fields in their order. -/
def names (r : Record α) : List String := r.fields.map (·.1)

/-- How many items an array needs to be read as this record. -/
def expectedItems (r : Record α) (title : String) : String :=
  let n := r.fields.length
  "struct " ++ title ++ " with " ++ toString n ++ (if n = 1 then " element" else " elements")

/-- Takes one member; with `strict` one that belongs to no field is a fault. -/
def takeMember (r : Record α) (strict : Bool) (d : Dialect) (s : r.State)
    (m : String × Json) : Except Fault r.State :=
  match r.take d s m.1 m.2 with
  | some result => result
  | none => if strict then .error (.unknownField m.1 r.names) else .ok s

/-- What items after the last field of an array of `n` items mean. -/
def checkLeftOver (d : Dialect) (n : Nat) (rest : List Json) : Except Fault Unit :=
  match d, rest with
  | _, [] => .ok ()
  | .tree, _ => .error (.wrongLength n "fewer elements in array")
  | .text, _ => .error .leftOver
  | .toml, _ => .ok ()

/-- Reads a record called `title` in faults. -/
def decode (r : Record α) (title : String) (strict : Bool) : Decoder α where
  scope := .fields r.fields
  run
    | d, .obj members => do
      let s ← members.foldlM (r.takeMember strict d) r.start
      r.finish s
    | d, .arr items => do
      let (a, rest) ← r.items d (r.expectedItems title) items
      checkLeftOver d items.length rest
      return a
    | _, v => mismatch v ("struct " ++ title)

end Record

/-! ### Texts -/

/-- Reads data that is already at hand. -/
def ofTree {α : Type} (decode : Decoder α) (v : Json) : Except Fault α :=
  decode .tree v.canonical

/-- The value that a form stands for where only what the decoder looks at has to be part of a
document. -/
def ofForm? {α : Type} (decode : Decoder α) (form : Json.Form) : Option α := do
  let v ← Json.ofForm? (form.restrict decode.scope)
  (decode .text v).toOption

/-- Reads JSON text. A fault is found in a document only; a text that is none may still be
read if nothing but what is not looked at keeps it from being one. -/
def ofText {α : Type} (decode : Decoder α) (s : String) : Except Misreading α :=
  match Json.Form.parse? s with
  | none => .error .noDocument
  | some form =>
    match Json.ofForm? form with
    | some v => (decode .text v).mapError (.misfit .text)
    | none =>
      -- No document, but what keeps it from being one may be of no interest.
      match ofForm? decode form with
      | some a => .ok a
      | none => .error .noDocument

/-- Of a document's text the document is read. -/
theorem ofText_of_parse? {α : Type} (decode : Decoder α) {s : String} {v : Json}
    (h : Json.parse? s = some v) :
    ofText decode s = (decode .text v).mapError (.misfit .text) := by
  obtain ⟨form, hform, hv⟩ := Option.bind_eq_some_iff.1 h
  simp [ofText, hform, hv]

end Scorecard.Decode
