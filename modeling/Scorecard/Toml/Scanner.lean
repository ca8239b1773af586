/-!
# Scanning text

A scanner takes a value off the front of a text or refuses it. Blanks here are spaces and
tabs; lines end in line feeds, and a comment runs from `#` to the end of its line.

* `unifyBreaks`: a carriage return before a line feed belongs to the line's end.
-/

namespace Scorecard.Toml

/-- Takes a value off the front of the text. -/
abbrev Scanner (α : Type) := StateT (List Char) Option α

/-- The text with every line ending in a line feed alone. -/
def unifyBreaks : List Char → List Char
  | '\r' :: '\n' :: rest => '\n' :: unifyBreaks rest
  | c :: rest => c :: unifyBreaks rest
  | [] => []

namespace Scanner

/-- Refuses whatever text follows. -/
def refuse {α : Type} : Scanner α := fun _ => none

/-- The character in front, if there is one. -/
def peek? : Scanner (Option Char) := return (← get).head?

/-- Takes a character that satisfies `p`. -/
def satisfy (p : Char → Bool) : Scanner Char
  | c :: rest => if p c then some (c, rest) else none
  | [] => none

/-- Takes the character `c`. -/
def char (c : Char) : Scanner Unit := discard (satisfy (· == c))

/-- Takes the given characters. -/
def literal : List Char → Scanner Unit
  | [] => pure ()
  | c :: rest => do char c; literal rest

/-- Takes the characters in front that satisfy `p`. -/
def takeWhile (p : Char → Bool) : Scanner (List Char) := fun cs => some (cs.span p)

/-- Takes the characters in front that satisfy `p`, at least one. -/
def takeWhile1 (p : Char → Bool) : Scanner (List Char) := do
  let first ← satisfy p
  return first :: (← takeWhile p)

/-- What the scanner takes, or nothing. -/
def attempt {α : Type} (s : Scanner α) : Scanner (Option α) := (some <$> s) <|> pure none

/-- Takes one or more items with `separator` between them; `fuel` bounds their number. -/
def separated {α : Type} (item : Scanner α) (separator : Char) : (fuel : Nat) → Scanner (List α)
  | 0 => refuse
  | fuel + 1 => do
    let a ← item
    if (← peek?) = some separator then
      char separator
      return a :: (← separated item separator fuel)
    else return [a]

/-! ### Blanks, comments and lines -/

/-- Whether the character is a blank. -/
def isBlank (c : Char) : Bool := c == ' ' || c == '\t'

/-- Whether the character may stand in a comment: it is a tab or no control. -/
def isCommentChar (c : Char) : Bool :=
  c == '\t' || (0x20 ≤ c.toNat && c.toNat ≠ 0x7F)

/-- Skips blanks. -/
def blanks : Scanner Unit := discard (takeWhile isBlank)

/-- The item between blanks. -/
def spaced {α : Type} (item : Scanner α) : Scanner α := do
  blanks
  let a ← item
  blanks
  return a

/-- Skips a comment, if there is one. -/
def comment : Scanner Unit := do
  if (← peek?) = some '#' then discard (takeWhile isCommentChar)

/-- Skips blanks and a comment up to the end of the line, and that end. -/
def lineEnd : Scanner Unit := do
  blanks
  comment
  if (← get).isEmpty then return () else char '\n'

/-- What is left of the text after blanks, comments and line ends. -/
def dropLines : (inComment : Bool) → List Char → List Char
  | _, [] => []
  | true, c :: rest =>
    if c = '\n' then dropLines false rest
    else if isCommentChar c then dropLines true rest
    else c :: rest
  | false, c :: rest =>
    if isBlank c || c = '\n' then dropLines false rest
    else if c = '#' then dropLines true rest
    else c :: rest

/-- Skips blanks, comments and line ends. -/
def lines : Scanner Unit := modify (dropLines false)

end Scanner

end Scorecard.Toml
