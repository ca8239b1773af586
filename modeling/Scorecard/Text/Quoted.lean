import Scorecard.Text.Hidden

/-!
# Quoted text

Messages show names between double quotes. Inside, a quote and a backslash are
marked by a backslash, the common controls have letters of their own, and any other
character that shows nothing of its own is written by its number in braces.

* `Quoted.encode_append`: quoting works character by character.
-/

namespace Scorecard.Text.Quoted

/-- The hexadecimal digits of `n`, in lower case and without leading zeros. -/
def hex (n : Nat) : List Char := Nat.toDigits 16 n

/-- How a character is written between the quotes. -/
def encodeChar (c : Char) : List Char :=
  if c = '"' then ['\\', '"']
  else if c = '\\' then ['\\', '\\']
  else if c = '\n' then ['\\', 'n']
  else if c = '\r' then ['\\', 'r']
  else if c = '\t' then ['\\', 't']
  else if c.toNat = 0 then ['\\', '0']
  else if isHidden c then ['\\', 'u', '\x7b'] ++ hex c.toNat ++ ['\x7d']
  else [c]

/-- The characters as they are written between the quotes. -/
def encode (cs : List Char) : List Char := cs.flatMap encodeChar

/-- Quoting works character by character. -/
@[simp] theorem encode_append (cs ds : List Char) : encode (cs ++ ds) = encode cs ++ encode ds := by
  simp [encode]

end Scorecard.Text.Quoted

namespace Scorecard.Text

/-- The text between double quotes. -/
def quote (s : String) : String :=
  String.ofList ('"' :: Quoted.encode s.toList ++ ['"'])

/-- A list of quoted texts between brackets. -/
def quoteList (ss : List String) : String :=
  "[" ++ String.intercalate ", " (ss.map quote) ++ "]"

end Scorecard.Text
