import Scorecard.Json.Basic

/-!
# Forms of documents

A text may have the form of a document and still stand for none, because it holds a number
beyond the greatest binary64 number or a string with half a surrogate pair, or because it is
nested too deeply. A `Form` is such a text after its grammar has been checked, with its
scalars read as far as they can be.

Whoever reads a document need not look at all of it. A `Scope` tells which parts are looked
at, and `Form.restrict` puts `null` in place of the others.

* `Form.toJson?`: the document, if the form stands for one.
-/

namespace Scorecard.Json

/-- A document as far as its grammar goes. -/
inductive Form
  /-- A scalar; none if there is no such number or string. -/
  | scalar (v : Option Json)
  | arr (items : List Form)
  /-- An object; a name is none if there is no such string. -/
  | obj (members : List (Option String × Form))

/-- The parts of a document that are looked at. -/
inductive Scope
  /-- All of it. -/
  | whole
  /-- Every item of an array, as far as `s` tells. -/
  | items (s : Scope)
  /-- Every member of an object, as far as `s` tells. -/
  | members (s : Scope)
  /-- The members of an object that have one of the names, or the items of an array in their
  place. -/
  | fields (fs : List (String × Scope))

namespace Form

instance : Inhabited Form := ⟨scalar none⟩

/-- The form of a value that is not looked at. -/
def blank : Form := scalar (some .null)

/-! ### The document -/

mutual

/-- The document, with arrays and objects nested at most `room` deep. -/
def toJson? (room : Nat) : Form → Option Json
  | scalar v => v
  | arr items =>
    match room with
    | 0 => none
    | room + 1 => (itemsToJson? room items).map .arr
  | obj members =>
    match room with
    | 0 => none
    | room + 1 => (membersToJson? room members).map .obj

/-- The documents of items. -/
def itemsToJson? (room : Nat) : List Form → Option (List Json)
  | [] => some []
  | v :: rest =>
    match toJson? room v with
    | none => none
    | some v => (itemsToJson? room rest).map (v :: ·)

/-- The documents of members. -/
def membersToJson? (room : Nat) : List (Option String × Form) → Option (List (String × Json))
  | [] => some []
  | (name, v) :: rest =>
    match name, toJson? room v with
    | some name, some v => (membersToJson? room rest).map ((name, v) :: ·)
    | _, _ => none

end

/-! ### Restriction -/

mutual

/-- The form with `null` in place of the values of an object that are not looked at. -/
def restrict : Scope → Form → Form
  | .items s, arr items => arr (restrictItems s items)
  | .members s, obj members => obj (restrictMembers (fun _ => some s) members)
  | .fields fs, arr items => arr (restrictFields (fs.map (·.2)) items)
  | .fields fs, obj members => obj (restrictMembers (fun name => fs.lookup name) members)
  | _, v => v

/-- Restricts all items alike. -/
def restrictItems (s : Scope) : List Form → List Form
  | [] => []
  | v :: rest => restrict s v :: restrictItems s rest

/-- Restricts items one by one; those left over stay as they are. -/
def restrictFields : List Scope → List Form → List Form
  | s :: ss, v :: rest => restrict s v :: restrictFields ss rest
  | _, rest => rest

/-- Restricts members by their names. -/
def restrictMembers (scope : String → Option Scope) :
    List (Option String × Form) → List (Option String × Form)
  | [] => []
  | (name, v) :: rest =>
    let v := match name.bind scope with
      | some s => restrict s v
      | none => blank
    (name, v) :: restrictMembers scope rest

end

/-- Where all is looked at nothing is left out. -/
@[simp] theorem restrict_whole (v : Form) : restrict .whole v = v := by
  cases v <;> rfl

end Form

end Scorecard.Json
