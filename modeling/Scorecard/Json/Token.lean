import Scorecard.Json.Numeral
import Scorecard.Json.Quoted

/-!
# Tokens of documents

`Token.scan` cuts the text of a document into tokens: brackets, braces, commas, colons and
scalars. Blanks between them (space, tab, line feed, carriage return) are skipped. Text that
is no sequence of tokens is refused, among it an unescaped control in a string. A number
beyond the greatest binary64 number and a string with half a surrogate pair are tokens without
a value.
-/

namespace Scorecard.Json

/-- A token of a document. -/
inductive Token
  | openArray
  | closeArray
  | openObject
  | closeObject
  | comma
  | colon
  /-- A string; none if half a surrogate pair stands in it alone. -/
  | str (s : Option String)
  /-- A scalar other than a string; none if it is a number beyond the greatest binary64
  number. -/
  | scalar (v : Option Json)

namespace Token

/-- Whether the character is skipped between tokens. -/
def isSpace (c : Char) : Bool := c = ' ' || c = '\n' || c = '\t' || c = '\r'

/-- Reads the token in front of the text, which starts with no blank. -/
def next? : List Char → Option (Token × List Char)
  | '[' :: rest => some (openArray, rest)
  | ']' :: rest => some (closeArray, rest)
  | '\x7b' :: rest => some (openObject, rest)
  | '\x7d' :: rest => some (closeObject, rest)
  | ',' :: rest => some (comma, rest)
  | ':' :: rest => some (colon, rest)
  | '"' :: rest =>
    (Quoted.scan [] rest).map fun (pieces, rest) => (str (Quoted.join? [] pieces), rest)
  | 'n' :: 'u' :: 'l' :: 'l' :: rest => some (scalar (some .null), rest)
  | 't' :: 'r' :: 'u' :: 'e' :: rest => some (scalar (some (.bool true)), rest)
  | 'f' :: 'a' :: 'l' :: 's' :: 'e' :: rest => some (scalar (some (.bool false)), rest)
  | cs => (Numeral.scan cs).map fun (n, rest) => (scalar (n.map .num), rest)

/-- A token takes at least one character. -/
theorem next?_length {cs rest : List Char} {t : Token} (h : next? cs = some (t, rest)) :
    rest.length < cs.length := by
  unfold next? at h
  split at h
  case h_7 =>
    obtain ⟨⟨pieces, left⟩, hscan, h⟩ := Option.map_eq_some_iff.1 h
    obtain ⟨-, rfl⟩ := Prod.mk.inj h
    exact Nat.lt_succ_of_lt (Quoted.scan_length hscan)
  case h_11 =>
    obtain ⟨⟨n, left⟩, hscan, h⟩ := Option.map_eq_some_iff.1 h
    obtain ⟨-, rfl⟩ := Prod.mk.inj h
    exact Numeral.scan_length hscan
  all_goals
    obtain ⟨-, rfl⟩ := Prod.mk.inj (Option.some.inj h)
    simp +arith

/-- The tokens of the text. -/
def scan (cs : List Char) : Option (List Token) :=
  match cs with
  | [] => some []
  | c :: rest =>
    if isSpace c then scan rest
    else match _ : next? (c :: rest) with
      | none => none
      | some (t, left) => (scan left).map (t :: ·)
termination_by cs.length
decreasing_by
  · exact Nat.lt_succ_self _
  · exact next?_length ‹_›

end Token

end Scorecard.Json
