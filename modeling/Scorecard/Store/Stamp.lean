import Scorecard.Decode.Basic
import Scorecard.Store.Timestamp
import Scorecard.Text.Basic

/-!
# Stamps

An index is stamped with a random number of 128 bits that identifies its run and with the time
at which it was made.

* `RunId.decode`: reads the number in any of the forms in which such numbers are written.
-/

namespace Scorecard

open Decode

/-- A number of 128 bits as 32 hexadecimal digits in lower case, in five groups with hyphens
between them. -/
structure RunId where
  text : String
  deriving DecidableEq, Repr

namespace RunId

/-- The number zero. -/
def nil : RunId := ⟨"00000000-0000-0000-0000-000000000000"⟩

/-- The lengths of the groups. -/
def groups : List Nat := [8, 4, 4, 4, 12]

/-- The way of making the number that it states. -/
def version (r : RunId) : Nat := ((r.text.toList[14]?).bind Text.Digit.value?).getD 0

/-- Puts hyphens between the groups of digits. -/
def hyphenate : List Nat → List Char → List Char
  | [], cs => cs
  | [_], cs => cs
  | n :: ns, cs => cs.take n ++ '-' :: hyphenate ns (cs.drop n)

/-! ### Reading -/

/-- What is wrong with a text that writes no such number. -/
inductive Flaw
  /-- The text has `found` bytes, more than any form has or another number of digits than the
  form without hyphens. -/
  | length (found : Nat)
  /-- At a place stands neither a digit nor a hyphen. -/
  | strange (c : Char) (place : Nat)
  | groupCount (found : Nat)
  | groupLength (group found : Nat)
  deriving DecidableEq, Repr

/-- The wording of a flaw. -/
def Flaw.message : Flaw → String
  | length found => "invalid length: found " ++ toString found
  | strange c place =>
    "invalid character: found " ++ backquoted (String.ofList [c]) ++ " at " ++ toString place
  | groupCount found =>
    "invalid group count: expected " ++ toString groups.length ++ ", found " ++ toString found
  | groupLength group found =>
    "invalid group length in group " ++ toString group ++ ": expected "
      ++ toString (groups.getD group 0) ++ ", found " ++ toString found

/-- The number of bytes of characters. -/
def byteCount (cs : List Char) : Nat := cs.foldl (fun n c => n + c.utf8Size) 0

/-- The number of digits. -/
def digitCount : Nat := 32

/-- The number of bytes of a number in groups. -/
def groupedSize : Nat := 36

/-- The greatest number of bytes that a form of a number has. -/
def longest : Nat := 45

/-- What may stand in front of a number in groups, in letters of any case. -/
def front : List Char := "urn:uuid:".toList

/-- The characters inside braces or after the front, and how many bytes stand before them. -/
def unwrap? (cs : List Char) : Option (List Char × Nat) :=
  match cs with
  | '\x7b' :: rest => if rest.getLast? = some '\x7d' then some (rest.dropLast, 1) else none
  | _ =>
    if (cs.take front.length).map Char.toLower = front then
      some (cs.drop front.length, front.length)
    else none

/-- The part of a text that writes the number. -/
structure Core where
  chars : List Char
  /-- The place of the first character; in a part that is as long as a number in groups, places
  are counted from zero. -/
  start : Nat
  /-- Whether the digits stand without hyphens. -/
  plain : Bool

/-- The part of a text that writes the number. A text as long as a number in groups is taken
for one, and one as long as the digits alone for those. -/
def Core.ofChars (cs : List Char) : Core :=
  if byteCount cs = digitCount then ⟨cs, 0, true⟩
  else if byteCount cs = groupedSize then ⟨cs, 0, false⟩
  else match unwrap? cs with
    | some (inner, start) => ⟨inner, if byteCount inner = groupedSize then 0 else start, false⟩
    | none => ⟨cs, 0, true⟩

/-- The first character that is neither a digit nor a hyphen, and its place in bytes. -/
def strange? (place : Nat) : List Char → Option (Char × Nat)
  | [] => none
  | c :: rest =>
    if Text.Digit.isHex c || c = '-' then strange? (place + c.utf8Size) rest else some (c, place)

/-- The first of the groups other than the last that has a wrong length, and that length. -/
def wrongGroup? (lengths : List Nat) : Option (Nat × Nat) :=
  ((groups.dropLast.zip lengths).zipIdx.find? fun ((want, got), _) => want != got).map
    fun ((_, got), group) => (group, got)

/-- What is wrong with the lengths of the groups in a text of `size` bytes; the last group is
taken to be all that follows where it has to start. -/
def Flaw.ofLengths (size : Nat) (plain : Bool) (lengths : List Nat) : Flaw :=
  if plain ∧ lengths.length = 1 then .length size
  else if lengths.length ≠ groups.length then .groupCount lengths.length
  else match wrongGroup? lengths with
    | some (group, found) => .groupLength group found
    | none =>
      let last := groups.length - 1
      .groupLength last (size - (groupedSize - groups.getD last 0))

/-- Reads a number. -/
def read (cs : List Char) : Except Flaw RunId := do
  let size := byteCount cs
  if longest < size then throw (.length size)
  let core := Core.ofChars cs
  if let some (c, place) := strange? core.start core.chars then throw (.strange c place)
  let parts := core.chars.splitOn '-'
  let lengths := parts.map List.length
  if lengths = (if core.plain then [digitCount] else groups) then
    return ⟨String.ofList ((hyphenate groups parts.flatten).map Char.toLower)⟩
  else throw (.ofLengths size core.plain lengths)

/-- Reads a number out of a document. -/
def decode : Decoder RunId :=
  (stringNamed "a formatted UUID string").andThen fun s =>
    (read s.toList).mapError fun flaw => .stated ("UUID parsing failed: " ++ flaw.message)

/-- The number as a document. -/
def toJson (r : RunId) : Json := .str r.text

end RunId

/-- What tells one index from another. -/
structure Stamp where
  runId : RunId
  time : Timestamp
  deriving DecidableEq, Repr

end Scorecard
