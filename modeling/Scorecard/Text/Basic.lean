/-!
# Characters and texts

Tags (languages, headings) are compared without regard to surrounding blanks and to the case of
ASCII letters. `Text.normal` is the form under which two such tags are the same.

The digits of a base up to sixteen are `0` to `9` and the letters `a` to `f` in either case.

* `isBlank_of_isWhitespace`: everything the standard library takes for white space is blank.
* `occurs_iff`: `occurs` decides whether a list is a contiguous part of another.
* `Digit.ofDigits_concat`: one more digit multiplies by the base and adds the digit's value.
-/

namespace Scorecard.Text

/-! ### Blanks and normal forms -/

/-- The characters with the property `White_Space`. -/
def isBlank (c : Char) : Bool :=
  let n := c.toNat
  (0x09 ≤ n && n ≤ 0x0D) || n == 0x20 || n == 0x85 || n == 0xA0 || n == 0x1680
    || (0x2000 ≤ n && n ≤ 0x200A) || n == 0x2028 || n == 0x2029 || n == 0x202F
    || n == 0x205F || n == 0x3000

/-- What is left of the characters without the blanks at both ends. -/
def trimChars (cs : List Char) : List Char :=
  ((cs.dropWhile isBlank).reverse.dropWhile isBlank).reverse

/-- The text without the blanks at both ends. -/
def trim (s : String) : String := String.ofList (trimChars s.toList)

/-- The text in lower case, as far as ASCII letters go. -/
def lower (s : String) : String := String.ofList (s.toList.map Char.toLower)

/-- The normal form of a tag: without the blanks at both ends and in lower case. -/
def normal (s : String) : String := lower (trim s)

/-- Whether all characters of the text are blank. -/
def isBlankText (s : String) : Bool := (trimChars s.toList).isEmpty

/-- Everything the standard library takes for white space is blank. -/
theorem isBlank_of_isWhitespace {c : Char} (h : c.isWhitespace = true) : isBlank c = true := by
  simp only [Char.isWhitespace, Bool.or_eq_true, decide_eq_true_eq] at h
  rcases h with ((rfl | rfl) | rfl) | rfl <;> rfl

/-! ### Occurrences -/

/-- Whether the characters `part` stand somewhere in a row inside the others. -/
def occurs (part : List Char) : List Char → Bool
  | [] => part.isEmpty
  | c :: rest => part.isPrefixOf (c :: rest) || occurs part rest

/-- `occurs` decides whether a list is a contiguous part of another. -/
theorem occurs_iff {part whole : List Char} : occurs part whole = true ↔ part <:+: whole := by
  induction whole with
  | nil => simp [occurs]
  | cons c rest ih => simp [occurs, ih, List.infix_cons_iff]

/-! ### Digits -/

namespace Digit

/-- The value of a hexadecimal digit. -/
def value? (c : Char) : Option Nat :=
  if '0' ≤ c ∧ c ≤ '9' then some (c.toNat - '0'.toNat)
  else if 'a' ≤ c ∧ c ≤ 'f' then some (c.toNat - 'a'.toNat + 10)
  else if 'A' ≤ c ∧ c ≤ 'F' then some (c.toNat - 'A'.toNat + 10)
  else none

/-- Whether the character is a hexadecimal digit. -/
def isHex (c : Char) : Bool := (value? c).isSome

/-- The number that digits write in the given base. -/
def ofDigits (base : Nat) (ds : List Char) : Nat :=
  ds.foldl (fun n c => n * base + (value? c).getD 0) 0

/-- One more digit multiplies by the base and adds the digit's value. -/
theorem ofDigits_concat (base : Nat) (ds : List Char) (c : Char) :
    ofDigits base (ds ++ [c]) = ofDigits base ds * base + (value? c).getD 0 := by
  simp [ofDigits]

end Digit

end Scorecard.Text
