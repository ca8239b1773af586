import Scorecard.Toml.Quoted
import Scorecard.Toml.Date
import Scorecard.Toml.Entries

/-!
# Values

A value is a string, a number, a truth value, a date, an array or a table on one line. Arrays
and tables may be nested up to a fixed depth. A date becomes an object with one member, its
text.
-/

namespace Scorecard.Toml.Value

open Scanner

/-- How deep arrays and tables may be nested. -/
def maxDepth : Nat := 79

/-- A date as a document. -/
def ofDate (text : String) : Json := .obj [(Json.dateKey, .str text)]

/-- A value other than an array or a table. -/
def scalar : Scanner Json := do
  match ← peek? with
  | some 't' => literal "true".toList; return .bool true
  | some 'f' => literal "false".toList; return .bool false
  | some c =>
    if c = '"' ∨ c = '\'' then .str <$> Quoted.string
    else (ofDate <$> Date.date) <|> Number.number
  | none => refuse

/-- The items of an array after its opening bracket, up to and with the closing one. A comma
may stand after the last item; `fuel` bounds the number of items. -/
def items (item : Scanner Json) : (fuel : Nat) → Scanner (List Json)
  | 0 => refuse
  | fuel + 1 => do
    lines
    if (← peek?) = some ']' then
      char ']'
      return []
    let v ← item
    lines
    if (← peek?) = some ',' then
      char ','
      return v :: (← items item fuel)
    else
      char ']'
      return [v]

/-- A key, an equals sign and a value; gives the key's parts before the last, the last and
the value. -/
def entry (item : Scanner Json) : Scanner (List String × String × Json) := do
  let path ← Key.path
  char '='
  let v ← spaced item
  match path.getLast? with
  | some key => return (path.dropLast, key, v)
  | none => refuse

/-- The entries of a table on one line, after its opening brace. -/
def members (item : Scanner Json) : Scanner Json := do
  blanks
  if (← peek?) = some '\x7d' then
    char '\x7d'
    return .obj []
  let entries ← separated (entry item) ',' ((← get).length + 1)
  char '\x7d'
  match entries.foldlM (fun (es : Entries) (e : List String × String × Json) =>
      es.define e.1 e.2.1 e.2.2) [] with
  | some es => return .obj (entriesToMembers es)
  | none => refuse

/-- A value inside which arrays and tables are nested at most `depth` deep. -/
def value : (depth : Nat) → Scanner Json
  | 0 => scalar
  | depth + 1 => do
    match ← peek? with
    | some '[' => char '['; .arr <$> items (value depth) ((← get).length + 1)
    | some '\x7b' => char '\x7b'; members (value depth)
    | _ => scalar

end Scorecard.Toml.Value
