import Scorecard.Toml.Scanner
import Scorecard.Text.Basic

/-!
# Strings and keys

Basic strings stand between double quotes and know escapes; literal strings stand between
single quotes and know none. Both have a form between three quotes that may run over several
lines, where one or two quotes may stand inside and just before the end.
-/

namespace Scorecard.Toml

namespace Quoted

/-- Whether the character may stand in a string: it is a tab or no control. -/
def isStringChar (c : Char) : Bool := Scanner.isCommentChar c

/-- The character that a letter stands for after a backslash. -/
def escapeLetter? : Char → Option Char
  | '"' => some '"'
  | '\\' => some '\\'
  | 'b' => some '\x08'
  | 'f' => some '\x0c'
  | 'n' => some '\n'
  | 'r' => some '\r'
  | 't' => some '\t'
  | _ => none

/-- The character whose number the hexadecimal digits write; none for a surrogate or beyond
the last character. -/
def scalar? (ds : List Char) : Option Char := do
  guard (ds.all Text.Digit.isHex)
  let n := Text.Digit.ofDigits 16 ds
  if n.isValidChar then some (Char.ofNat n) else none

/-- The number of quotes before the end of a string between three quotes, of the run of `n`
quotes that ends it. -/
def quotesBeforeEnd (n : Nat) : Nat := min (n - 3) 2

/-- Reads a basic string after its opening quote. -/
def basicBody (read : List Char) : List Char → Option (String × List Char)
  | '"' :: rest => some (String.ofList read.reverse, rest)
  | '\\' :: 'u' :: a :: b :: c :: d :: rest =>
    match scalar? [a, b, c, d] with
    | some x => basicBody (x :: read) rest
    | none => none
  | '\\' :: 'U' :: a :: b :: c :: d :: e :: f :: g :: h :: rest =>
    match scalar? [a, b, c, d, e, f, g, h] with
    | some x => basicBody (x :: read) rest
    | none => none
  | '\\' :: c :: rest =>
    match escapeLetter? c with
    | some x => basicBody (x :: read) rest
    | none => none
  | c :: rest => if isStringChar c then basicBody (c :: read) rest else none
  | [] => none

/-- Reads a literal string after its opening quote. -/
def literalBody (read : List Char) : List Char → Option (String × List Char)
  | '\'' :: rest => some (String.ofList read.reverse, rest)
  | c :: rest => if isStringChar c then literalBody (c :: read) rest else none
  | [] => none

/-- Ends a string before a run of at least three quotes `q`. -/
def closeRun (q : Char) (read cs : List Char) : String × List Char :=
  let n := (cs.takeWhile (· == q)).length
  let inside := quotesBeforeEnd n
  (String.ofList ((List.replicate inside q ++ read).reverse), cs.drop (inside + 3))

/-- Where a basic string over several lines is being read. -/
inductive Mode
  | content
  /-- After a backslash and before the end of its line, which both vanish. -/
  | folded
  /-- After such an end of line, where blanks and further line ends vanish too. -/
  | trimming
  deriving DecidableEq

/-- Reads a basic string over several lines after its opening quotes. -/
def basicLines (read : List Char) : Mode → List Char → Option (String × List Char)
  | .folded, c :: rest =>
    if Scanner.isBlank c then basicLines read .folded rest
    else if c = '\n' then basicLines read .trimming rest
    else none
  | .trimming, ' ' :: rest => basicLines read .trimming rest
  | .trimming, '\t' :: rest => basicLines read .trimming rest
  | .trimming, '\n' :: rest => basicLines read .trimming rest
  | _, '"' :: '"' :: '"' :: rest => some (closeRun '"' read ('"' :: '"' :: '"' :: rest))
  | _, '\\' :: 'u' :: a :: b :: c :: d :: rest =>
    match scalar? [a, b, c, d] with
    | some x => basicLines (x :: read) .content rest
    | none => none
  | _, '\\' :: 'U' :: a :: b :: c :: d :: e :: f :: g :: h :: rest =>
    match scalar? [a, b, c, d, e, f, g, h] with
    | some x => basicLines (x :: read) .content rest
    | none => none
  | _, '\\' :: '\n' :: rest => basicLines read .trimming rest
  | _, '\\' :: c :: rest =>
    if Scanner.isBlank c then basicLines read .folded rest
    else match escapeLetter? c with
      | some x => basicLines (x :: read) .content rest
      | none => none
  | _, c :: rest =>
    if isStringChar c || c = '\n' then basicLines (c :: read) .content rest else none
  | _, [] => none

/-- Reads a literal string over several lines after its opening quotes. -/
def literalLines (read : List Char) : List Char → Option (String × List Char)
  | '\'' :: '\'' :: '\'' :: rest => some (closeRun '\'' read ('\'' :: '\'' :: '\'' :: rest))
  | c :: rest =>
    if isStringChar c || c = '\n' then literalLines (c :: read) rest else none
  | [] => none

/-- The text without a line end in front. -/
def skipBreak : List Char → List Char
  | '\n' :: rest => rest
  | cs => cs

/-- Reads a string of any form. -/
def string : Scanner String
  | '"' :: '"' :: '"' :: rest => basicLines [] .content (skipBreak rest)
  | '\'' :: '\'' :: '\'' :: rest => literalLines [] (skipBreak rest)
  | '"' :: rest => basicBody [] rest
  | '\'' :: rest => literalBody [] rest
  | _ => none

end Quoted

namespace Key

/-- Whether the character may stand in a key without quotes. -/
def isBare (c : Char) : Bool := c.isAlphanum || c == '_' || c == '-'

/-- One part of a key: bare, or a string on one line. -/
def part : Scanner String
  | '"' :: rest => Quoted.basicBody [] rest
  | '\'' :: rest => Quoted.literalBody [] rest
  | cs => (String.ofList <$> Scanner.takeWhile1 isBare) cs

/-- The number of parts that a key must stay below. -/
def maxParts : Nat := 80

/-- A key: parts with points between them. -/
def path : Scanner (List String) := do
  let parts ← Scanner.separated (Scanner.spaced part) '.' ((← get).length + 1)
  if parts.length < maxParts then return parts else Scanner.refuse

end Key

end Scorecard.Toml
