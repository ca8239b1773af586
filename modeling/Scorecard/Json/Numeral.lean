import Scorecard.Json.Basic
import Scorecard.Decimal.Reading
import Scorecard.Text.Basic

/-!
# Numbers in documents

A number is a sign, digits without superfluous zeros, a fraction and an exponent; only the
digits have to be there. Each part is taken off the front of a text.

* `Numeral.scan_length`: reading a number takes at least one character.
-/

namespace Scorecard.Json.Numeral

open Text

/-- Splits off the digits in front. -/
def digitRun (cs : List Char) : List Char × List Char :=
  (cs.takeWhile Char.isDigit, cs.dropWhile Char.isDigit)

/-- The digits and what follows them are the whole text. -/
theorem digitRun_append {cs ds rest : List Char} (h : digitRun cs = (ds, rest)) :
    ds ++ rest = cs := by
  obtain ⟨rfl, rfl⟩ := Prod.mk.inj h
  exact List.takeWhile_append_dropWhile

/-- The digits after a point, if there is a point; a point needs a digit after it. -/
def fraction? : List Char → Option (Option (List Char) × List Char)
  | '.' :: rest =>
    match digitRun rest with
    | ([], _) => none
    | (ds, rest) => some (some ds, rest)
  | cs => some (none, cs)

/-- A fraction takes nothing back. -/
theorem fraction?_length {cs rest : List Char} {ds : Option (List Char)}
    (h : fraction? cs = some (ds, rest)) : rest.length ≤ cs.length := by
  unfold fraction? at h
  split at h
  · split at h
    · cases h
    · obtain ⟨-, rfl⟩ := Prod.mk.inj (Option.some.inj h)
      simp only [← digitRun_append ‹_›, List.length_cons, List.length_append]
      omega
  · obtain ⟨-, rfl⟩ := Prod.mk.inj (Option.some.inj h)
    exact Nat.le_refl _

/-- The sign in front of an exponent, `true` for minus, and what follows it. -/
def exponentSign : List Char → Bool × List Char
  | '-' :: rest => (true, rest)
  | '+' :: rest => (false, rest)
  | cs => (false, cs)

/-- A sign takes nothing back. -/
theorem exponentSign_length (cs : List Char) : (exponentSign cs).2.length ≤ cs.length := by
  unfold exponentSign
  split <;> simp

/-- The exponent, if there is one; its mark needs a digit after it. -/
def exponent? : List Char → Option (Option Int × List Char)
  | c :: rest =>
    if c = 'e' ∨ c = 'E' then
      let (negative, rest) := exponentSign rest
      match digitRun rest with
      | ([], _) => none
      | (ds, rest) =>
        let n : Int := Digit.ofDigits 10 ds
        some (some (if negative then -n else n), rest)
    else some (none, c :: rest)
  | [] => some (none, [])

/-- An exponent takes nothing back. -/
theorem exponent?_length {cs rest : List Char} {n : Option Int}
    (h : exponent? cs = some (n, rest)) : rest.length ≤ cs.length := by
  unfold exponent? at h
  split at h
  · next c cs =>
    split at h
    · dsimp only at h
      split at h
      · cases h
      · next hrun =>
        obtain ⟨-, rfl⟩ := Prod.mk.inj (Option.some.inj h)
        have hsign := exponentSign_length cs
        rw [← digitRun_append hrun, List.length_append] at hsign
        simp only [List.length_cons]
        omega
    · obtain ⟨-, rfl⟩ := Prod.mk.inj (Option.some.inj h)
      exact Nat.le_refl _
  · obtain ⟨-, rfl⟩ := Prod.mk.inj (Option.some.inj h)
    exact Nat.le_refl _

/-- The number written by the digits before the point, after it, and the exponent. Without
the latter two it is an integer, unless it is a negative zero or beyond 64 bits. There is none
beyond the greatest binary64 number. -/
def number? (negative : Bool) (whole : List Char) (fraction : Option (List Char))
    (exponent : Option Int) : Option Number :=
  let (significand, left) := Decimal.absorb 0 whole
  let real (significand : Nat) (e : Int) : Option Number :=
    (Decimal.scaled significand e).map fun x => .real (if negative then -x else x)
  match fraction, exponent with
  | none, none =>
    if left.isEmpty then
      let n : Int := if negative then -(significand : Int) else significand
      if h : FitsWord n ∧ ¬ (negative ∧ significand = 0) then some (.int n h.1)
      else real significand 0
    else real significand left.length
  | some ds, exponent =>
    let (significand, dropped) := Decimal.absorb significand ds
    let taken : Int := (ds.length - dropped.length : Nat)
    real significand (left.length - taken + exponent.getD 0)
  | none, some e => real significand (left.length + e)

/-- The sign in front of a number, `true` for minus, and what follows it. -/
def minus : List Char → Bool × List Char
  | '-' :: rest => (true, rest)
  | cs => (false, cs)

/-- A minus takes nothing back. -/
theorem minus_length (cs : List Char) : (minus cs).2.length ≤ cs.length := by
  unfold minus
  split <;> simp

/-- Whether digits may stand in front of a point: there are some, and a zero stands alone. -/
def isWhole (ds : List Char) : Bool := !ds.isEmpty && (ds.head? != some '0' || ds.length == 1)

/-- Reads a number; its value is none beyond the greatest binary64 number. -/
def scan (cs : List Char) : Option (Option Number × List Char) :=
  let (negative, cs) := minus cs
  let (whole, cs) := digitRun cs
  if isWhole whole then do
    let (fraction, cs) ← fraction? cs
    let (exponent, cs) ← exponent? cs
    return (number? negative whole fraction exponent, cs)
  else none

/-- A number takes at least one character. -/
theorem scan_length {cs rest : List Char} {n : Option Number}
    (h : scan cs = some (n, rest)) : rest.length < cs.length := by
  have hsign := minus_length cs
  simp only [scan, Option.bind_eq_bind, Option.pure_def] at h
  split at h
  · next hwhole =>
    obtain ⟨⟨fraction, afterFraction⟩, hfraction, h⟩ := Option.bind_eq_some_iff.1 h
    obtain ⟨⟨exponent, afterExponent⟩, hexponent, h⟩ := Option.bind_eq_some_iff.1 h
    obtain ⟨-, rfl⟩ := Prod.mk.inj (Option.some.inj h)
    generalize hrun : digitRun (minus cs).2 = run at hwhole hfraction
    obtain ⟨whole, afterWhole⟩ := run
    -- The digits in front of the point are some; all else only has to take nothing back.
    have hsome : 0 < whole.length :=
      List.length_pos_iff.2 fun hnil => by simp [isWhole, hnil] at hwhole
    have hfraction := fraction?_length hfraction
    have hexponent := exponent?_length hexponent
    rw [← digitRun_append hrun, List.length_append] at hsign
    dsimp only at hfraction hexponent ⊢
    omega
  · cases h

end Scorecard.Json.Numeral
