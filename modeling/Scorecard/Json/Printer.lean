import Scorecard.Json.Basic
import Scorecard.Decimal.Layout

/-!
# Writing documents

`Json.compact` writes a document on one line without blanks. `Json.pretty` writes each item
and member on a line of its own, two blanks deeper than what holds it; an empty array or
object stays on its line.
-/

namespace Scorecard.Json

/-! ### Scalars -/

/-- The two low hexadecimal digits of a control character, after `\u00`. -/
def controlDigits (c : Char) : List Char :=
  [Nat.digitChar (c.toNat / 16), Nat.digitChar (c.toNat % 16)]

/-- How a character is written in a string: quotes, backslashes and controls are escaped. -/
def escapeChar (c : Char) : List Char :=
  if c = '"' then ['\\', '"']
  else if c = '\\' then ['\\', '\\']
  else if c = '\x08' then ['\\', 'b']
  else if c = '\x0c' then ['\\', 'f']
  else if c = '\n' then ['\\', 'n']
  else if c = '\r' then ['\\', 'r']
  else if c = '\t' then ['\\', 't']
  else if c.toNat < 0x20 then ['\\', 'u', '0', '0'] ++ controlDigits c
  else [c]

/-- A string between quotes. -/
def writeString (s : String) : List Char :=
  '"' :: (s.toList.flatMap escapeChar ++ ['"'])

/-- An integer in decimal digits. -/
def writeInt (n : Int) : List Char :=
  if n < 0 then '-' :: Decimal.Layout.digits n.natAbs else Decimal.Layout.digits n.natAbs

/-- A number. A binary64 number that is not finite has no written form and becomes `null`. -/
def Number.write : Number → List Char
  | .int n _ => writeInt n
  | .real x => if x.isFinite then (Decimal.Layout.data.write x).toList else "null".toList

/-- A truth value. -/
def writeBool (b : Bool) : List Char := if b then "true".toList else "false".toList

/-! ### On one line -/

mutual

/-- The document on one line. -/
def compactChars : Json → List Char
  | null => "null".toList
  | bool b => writeBool b
  | num n => n.write
  | str s => writeString s
  | arr items => '[' :: (compactItems items ++ [']'])
  | obj members => '\x7b' :: (compactMembers members ++ ['\x7d'])

/-- Items with commas between them. -/
def compactItems : List Json → List Char
  | [] => []
  | [v] => compactChars v
  | v :: rest => compactChars v ++ ',' :: compactItems rest

/-- Members with commas between them. -/
def compactMembers : List (String × Json) → List Char
  | [] => []
  | [(name, v)] => writeString name ++ ':' :: compactChars v
  | (name, v) :: rest => writeString name ++ ':' :: (compactChars v ++ ',' :: compactMembers rest)

end

/-- The document on one line. -/
def compact (v : Json) : String := String.ofList (compactChars v)

/-! ### Over several lines -/

/-- A line break and two blanks for each level. -/
def lineBreak (level : Nat) : List Char := '\n' :: List.replicate (2 * level) ' '

mutual

/-- The document over several lines, where it stands at `level`. -/
def prettyChars (level : Nat) : Json → List Char
  | null => "null".toList
  | bool b => writeBool b
  | num n => n.write
  | str s => writeString s
  | arr [] => ['[', ']']
  | arr (v :: rest) => '[' :: (prettyItems (level + 1) (v :: rest) ++ lineBreak level ++ [']'])
  | obj [] => ['\x7b', '\x7d']
  | obj (m :: rest) =>
    '\x7b' :: (prettyMembers (level + 1) (m :: rest) ++ lineBreak level ++ ['\x7d'])

/-- Items, each on a line of its own. -/
def prettyItems (level : Nat) : List Json → List Char
  | [] => []
  | [v] => lineBreak level ++ prettyChars level v
  | v :: rest => lineBreak level ++ (prettyChars level v ++ ',' :: prettyItems level rest)

/-- Members, each on a line of its own. -/
def prettyMembers (level : Nat) : List (String × Json) → List Char
  | [] => []
  | [(name, v)] => lineBreak level ++ (writeString name ++ ':' :: ' ' :: prettyChars level v)
  | (name, v) :: rest =>
    lineBreak level ++
      (writeString name ++ ':' :: ' ' :: (prettyChars level v ++ ',' :: prettyMembers level rest))

end

/-- The document over several lines. -/
def pretty (v : Json) : String := String.ofList (prettyChars 0 v)

end Scorecard.Json
