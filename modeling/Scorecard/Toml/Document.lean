import Scorecard.Toml.Value

/-!
# Documents

A document is a sequence of lines: entries, headers of tables, comments and blank lines. The
entries after a header belong to its table.

* `Toml.parse?` reads a text as an object.
-/

namespace Scorecard.Toml

/-- A document in the course of being read: the tables finished so far, and the current table
with the path of its header. -/
structure Draft where
  finished : Entries
  current : Entries
  /-- Empty before the first header. -/
  path : List String
  /-- Whether the current table is a row of an array of tables. -/
  isRow : Bool

namespace Draft

/-- Nothing has been read. -/
def empty : Draft := ⟨[], [], [], false⟩

/-- Adds the row `row` under a key. -/
def pushRow (key : String) (row : Entries) (es : Entries) : Option Entries :=
  match es.get? key with
  | none => some (es.put key (.rows [row]))
  | some (.rows tables) => some (es.put key (.rows (tables ++ [row])))
  | some _ => none

/-- Puts the current table among the finished ones. -/
def finish (d : Draft) : Option Entries :=
  match d.path.getLast? with
  | none => some d.current
  | some key =>
    Entries.extendAt false (fun _ es =>
      if d.isRow then pushRow key d.current es
      else some (es.put key (.table false false d.current))) d.path.dropLast false d.finished

/-- The table that stands under a key, if a header may define it: there is none, or one that
headers passed through. Gives also the entries without it. -/
def claim (key : String) (es : Entries) : Option (Entries × Entries) :=
  match es.get? key with
  | none => some (es, [])
  | some (.table true false sub) => some (es.remove key, sub)
  | some _ => none

/-- The table under the path's end, for the header that defines it. -/
def claimed (finished : Entries) (parents : List String) (key : String) : Option Entries := do
  let mut here := finished
  for parent in parents do
    match here.get? parent with
    | some (.table _ _ sub) => here := sub
    | some (.rows tables) => here := tables.getLast?.getD []
    | _ => here := []
  return (← claim key here).2

/-- Begins the table of a header. -/
def beginTable (d : Draft) (parents : List String) (key : String) : Option Draft := do
  let finished ← d.finish
  let current ← claimed finished parents key
  let finished ← Entries.extendAt false (fun _ es => (claim key es).map (·.1)) parents false
    finished
  return ⟨finished, current, parents ++ [key], false⟩

/-- Begins a row of the array of tables of a header. -/
def beginRow (d : Draft) (parents : List String) (key : String) : Option Draft := do
  let finished ← d.finish
  let finished ← Entries.extendAt false (fun _ es =>
    match es.get? key with
    | none => some (es.put key (.rows []))
    | some (.rows _) => some es
    | some _ => none) parents false finished
  return ⟨finished, [], parents ++ [key], true⟩

/-- Adds an entry to the current table. -/
def define (d : Draft) (e : List String × String × Json) : Option Draft := do
  return { d with current := ← d.current.define e.1 e.2.1 e.2.2 }

end Draft

namespace Document

open Scanner

/-- A header and the table or row it begins. -/
def header (d : Draft) : Scanner Draft := do
  char '['
  let isRow := (← peek?) = some '['
  if isRow then char '['
  let path ← Key.path
  char ']'
  if isRow then char ']'
  lineEnd
  match path.getLast? with
  | none => refuse
  | some key =>
    let parents := path.dropLast
    match if isRow then d.beginRow parents key else d.beginTable parents key with
    | some d => return d
    | none => refuse

/-- One line, which starts with no blank. -/
def line (d : Draft) : Scanner Draft := do
  match ← peek? with
  | some '#' => lineEnd; return d
  | some '\n' => lineEnd; return d
  | some '[' => header d
  | _ =>
    let e ← Value.entry (Value.value Value.maxDepth)
    lineEnd
    match d.define e with
    | some d => return d
    | none => refuse

/-- The lines of a document; `fuel` bounds their number. -/
def body (d : Draft) : (fuel : Nat) → Scanner Draft
  | 0 => refuse
  | fuel + 1 => do
    blanks
    if (← get).isEmpty then return d else body (← line d) fuel

/-- The text without the mark of its encoding in front. -/
def skipMark : List Char → List Char
  | '\uFEFF' :: rest => rest
  | cs => cs

end Document

/-- The object that a text writes; none if the text is no document. -/
def parse? (text : String) : Option Json := do
  let cs := unifyBreaks (Document.skipMark text.toList)
  let (draft, _) ← Document.body .empty (cs.length + 1) cs
  return .obj (entriesToMembers (← draft.finish))

end Scorecard.Toml
