import Scorecard.Json.Basic

/-!
# Entries of tables

While a document is read its tables are still open to further entries, under the rules that
no key is given twice and that a table is defined in one place: a table made by a key with
points is extended by such keys only, and a table made in passing by a header may be defined
by a later header once.

* `Entries.extendAt`: changes the table at the end of a path.
-/

namespace Scorecard.Toml

/-- What stands under a key. -/
inductive Node
  | value (v : Json)
  /-- A table. It is `implicit` as long as it was only passed through, and `dotted` if that
  was by a key with points. -/
  | table (implicit dotted : Bool) (entries : List (String × Node))
  /-- An array of tables, each begun by a header of its own. -/
  | rows (tables : List (List (String × Node)))

/-- The entries of a table in the order in which they were made. -/
abbrev Entries := List (String × Node)

mutual

/-- The node as a document. -/
def Node.toJson : Node → Json
  | .value v => v
  | .table _ _ entries => .obj (entriesToMembers entries)
  | .rows tables => .arr (rowsToItems tables)

/-- The entries as members of an object. -/
def entriesToMembers : List (String × Node) → List (String × Json)
  | [] => []
  | (key, node) :: rest => (key, node.toJson) :: entriesToMembers rest

/-- The rows as objects. -/
def rowsToItems : List (List (String × Node)) → List Json
  | [] => []
  | entries :: rest => .obj (entriesToMembers entries) :: rowsToItems rest

end

namespace Entries

/-- What stands under a key. -/
def get? (es : Entries) (key : String) : Option Node := es.lookup key

/-- Puts a node under a key: in the place of what stood there, or at the end. -/
def put (es : Entries) (key : String) (node : Node) : Entries :=
  if (es.get? key).isSome then es.map fun e => if e.1 = key then (key, node) else e
  else es ++ [(key, node)]

/-- Drops a key. -/
def remove (es : Entries) (key : String) : Entries := es.filter (·.1 ≠ key)

/-- Changes the table at the end of the path by `f`, which is also told whether that table was
made by a key with points. Missing tables are made on the way; `dotted` says that the path is
a key with points, which may pass only through tables that are not yet defined. -/
def extendAt (dotted : Bool) (f : (reachedDotted : Bool) → Entries → Option Entries) :
    List String → (reachedDotted : Bool) → Entries → Option Entries
  | [], reached, es => f reached es
  | key :: path, _, es =>
    match es.get? key with
    | none => do
      let sub ← extendAt dotted f path dotted []
      return es.put key (.table true dotted sub)
    | some (.value _) => none
    | some (.table implicit isDotted sub) =>
      if dotted && !implicit then none
      else do
        let sub ← extendAt dotted f path isDotted sub
        return es.put key (.table implicit isDotted sub)
    | some (.rows tables) => do
      let last ← tables.getLast?
      let sub ← extendAt dotted f path false last
      return es.put key (.rows (tables.dropLast ++ [sub]))

/-- Adds an entry under a key that may have points: the table reached has to be one made by
points exactly if there were points, and must not have the last key yet. -/
def define (es : Entries) (parents : List String) (key : String) (v : Json) : Option Entries :=
  extendAt true (fun reached es =>
    if reached = parents.isEmpty ∨ (es.get? key).isSome then none
    else some (es.put key (.value v))) parents false es

end Entries

end Scorecard.Toml
