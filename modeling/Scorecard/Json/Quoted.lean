import Scorecard.Text.Basic

/-!
# Strings in documents

A string stands between double quotes. A backslash starts an escape: a letter for one
character, or `u` and the four hexadecimal digits of a unit of sixteen bits. Two units may be
the halves of a surrogate pair and write one character together; half a pair writes none.

* `Quoted.scan_length`: reading a string takes at least one character.
-/

namespace Scorecard.Json.Quoted

open Text

/-- The character that a letter stands for after a backslash. -/
def escapeLetter? : Char → Option Char
  | '"' => some '"'
  | '\\' => some '\\'
  | '/' => some '/'
  | 'b' => some '\x08'
  | 'f' => some '\x0c'
  | 'n' => some '\n'
  | 'r' => some '\r'
  | 't' => some '\t'
  | _ => none

/-- What a character or an escape stands for in a string. -/
inductive Piece
  | char (c : Char)
  /-- Half of a surrogate pair, a unit from D800 to DFFF. -/
  | half (unit : Nat)

/-- What a unit of sixteen bits stands for. -/
def Piece.ofUnit (n : Nat) : Piece :=
  if 0xD800 ≤ n ∧ n ≤ 0xDFFF then .half n else .char (Char.ofNat n)

/-- Reads the pieces of a string up to its closing quote. -/
def scan (read : List Piece) : List Char → Option (List Piece × List Char)
  | '"' :: rest => some (read.reverse, rest)
  | '\\' :: 'u' :: a :: b :: c :: d :: rest =>
    let ds := [a, b, c, d]
    if ds.all Digit.isHex then scan (.ofUnit (Digit.ofDigits 16 ds) :: read) rest else none
  | '\\' :: c :: rest =>
    match escapeLetter? c with
    | none => none
    | some c => scan (.char c :: read) rest
  | c :: rest => if c.toNat < 0x20 then none else scan (.char c :: read) rest
  | [] => none

/-- A string takes at least one character. -/
theorem scan_length {read pieces : List Piece} {cs rest : List Char}
    (h : scan read cs = some (pieces, rest)) : rest.length < cs.length := by
  fun_induction scan read cs with
  | case1 read rest' =>
    obtain ⟨-, rfl⟩ := Prod.mk.inj (Option.some.inj h)
    simp
  | case2 read a b c d cs ds _ ih => exact Nat.lt_of_lt_of_le (ih h) (by simp +arith)
  | case3 => cases h
  | case4 => cases h
  | case5 read c cs _ c' hc ih => exact Nat.lt_of_lt_of_le (ih h) (by simp +arith)
  | case6 => cases h
  | case7 read c cs _ _ _ _ ih => exact Nat.lt_of_lt_of_le (ih h) (by simp +arith)
  | case8 => cases h

/-- The characters that pieces stand for. A high half needs a low one after it, and the two
are one character. -/
def join? (read : List Char) : List Piece → Option String
  | [] => some (String.ofList read.reverse)
  | .char c :: rest => join? (c :: read) rest
  | .half high :: .half low :: rest =>
    if high < 0xDC00 ∧ 0xDC00 ≤ low then
      join? (Char.ofNat (0x10000 + (high - 0xD800) * 0x400 + (low - 0xDC00)) :: read) rest
    else none
  | .half _ :: _ => none

end Scorecard.Json.Quoted
