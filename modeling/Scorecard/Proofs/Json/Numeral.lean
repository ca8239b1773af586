import Scorecard.Json.Numeral
import Scorecard.Json.Printer

/-!
# Numerals

A number is written as a sign, digits, a fraction and an exponent, and these parts are read back,
whatever follows them, as long as that does not go on with a number. The number that the parts stand
for is the one that all digits write, with a power of ten, if the digits write one of 64 bits. So
every integer is read as it is.

* `Json.Numeral.Parts.scan_chars`: the parts of a numeral are read back.
* `Json.Numeral.number?_fraction`, `Json.Numeral.number?_exponent`: the number of the parts.
* `Json.Number.Legible`: a number that is read back, `Json.Number.legible_int`: every integer is.
-/

namespace Scorecard.Json

open Text Decimal

/-- The text does not go on with a number. -/
def Ends (rest : List Char) : Prop :=
  ∀ c, rest.head? = some c → c.isDigit = false ∧ c ≠ '.' ∧ c ≠ 'e' ∧ c ≠ 'E'

theorem ends_nil : Ends [] := nofun

theorem ends_cons {c : Char} {rest : List Char}
    (h : c.isDigit = false ∧ c ≠ '.' ∧ c ≠ 'e' ∧ c ≠ 'E') : Ends (c :: rest) := by
  intro c' hc
  cases hc
  exact h

/-- The number is read as another one, whatever follows it. -/
def Number.ReadAs (n n' : Number) : Prop :=
  ∀ rest, Ends rest → Numeral.scan (n.write ++ rest) = some (some n', rest)

/-- The number is read back, whatever follows it. -/
def Number.Legible (n : Number) : Prop := n.ReadAs n

namespace Numeral

/-! ### The parts of a numeral -/

/-- A fraction behind its point. -/
def fractionChars : Option (List Char) → List Char
  | none => []
  | some ds => '.' :: ds

/-- An exponent behind its mark, with its sign. -/
def exponentChars : Option Int → List Char
  | none => []
  | some e => 'e' :: (if e < 0 then '-' else '+') :: Layout.digits e.natAbs

/-- The parts of a numeral: digits without superfluous zeros, a fraction and an exponent. -/
structure Parts where
  whole : List Char
  fraction : Option (List Char)
  exponent : Option Int
  isDigit_whole : ∀ c ∈ whole, c.isDigit = true
  isWhole : Numeral.isWhole whole = true
  isDigit_fraction : ∀ ds ∈ fraction, ds ≠ [] ∧ ∀ c ∈ ds, c.isDigit = true

/-- A numeral without its sign. -/
def Parts.chars (p : Parts) : List Char :=
  p.whole ++ fractionChars p.fraction ++ exponentChars p.exponent

/-- A sign in front of a text. -/
def signChars (negative : Bool) (cs : List Char) : List Char :=
  if negative then '-' :: cs else cs

/-- A run of digits ends where something else comes. -/
private theorem digitRun_append_of_stop {ds rest : List Char} (hds : ∀ c ∈ ds, c.isDigit = true)
    (hrest : ∀ c, rest.head? = some c → c.isDigit = false) :
    digitRun (ds ++ rest) = (ds, rest) := by
  have hstop : rest.takeWhile Char.isDigit = [] ∧ rest.dropWhile Char.isDigit = rest := by
    cases rest with
    | nil => exact ⟨rfl, rfl⟩
    | cons c rest =>
      have hc := hrest c rfl
      exact ⟨List.takeWhile_cons_of_neg (by rw [hc]; exact Bool.false_ne_true),
        List.dropWhile_cons_of_neg (by rw [hc]; exact Bool.false_ne_true)⟩
  unfold digitRun
  rw [List.takeWhile_append_of_pos hds, List.dropWhile_append_of_pos hds, hstop.1, hstop.2,
    List.append_nil]

/-- A sign is read as it is written. -/
private theorem minus_signChars (negative : Bool) {c : Char} (hc : c.isDigit = true)
    (cs : List Char) : minus (signChars negative (c :: cs)) = (negative, c :: cs) := by
  cases negative with
  | true => rfl
  | false =>
    change minus (c :: cs) = _
    -- A digit is not taken for a minus sign.
    rw [minus]
    intro _ heq
    rw [(List.cons.inj heq).1] at hc
    exact absurd hc (by decide)

/-- A fraction is read as it is written, if neither a digit nor a point comes after it. -/
private theorem fraction?_append {fraction : Option (List Char)} {rest : List Char}
    (hfraction : ∀ ds ∈ fraction, ds ≠ [] ∧ ∀ c ∈ ds, c.isDigit = true)
    (hrest : ∀ c, rest.head? = some c → c.isDigit = false ∧ c ≠ '.') :
    fraction? (fractionChars fraction ++ rest) = some (fraction, rest) := by
  cases fraction with
  | none =>
    change fraction? rest = _
    unfold fraction?
    -- Without a fraction the numeral goes on without a point.
    split
    · exact absurd rfl (hrest '.' rfl).2
    · rfl
  | some ds =>
    obtain ⟨hne, hdigits⟩ := hfraction ds rfl
    change fraction? ('.' :: (ds ++ rest)) = _
    unfold fraction?
    simp only
    rw [digitRun_append_of_stop hdigits fun c hc => (hrest c hc).1]
    cases ds with
    | nil => exact absurd rfl hne
    | cons d ds => rfl

theorem isDigit_digits (n : Nat) : ∀ c ∈ Layout.digits n, c.isDigit = true :=
  fun _ hc => Nat.isDigit_of_mem_toDigits (by decide) (by decide) hc

/-- The value of a digit. -/
private theorem getD_value? {c : Char} (h : c.isDigit = true) :
    (Digit.value? c).getD 0 = c.toNat - '0'.toNat := by
  -- A digit lies between zero and nine among the characters.
  have hrange : '0' ≤ c ∧ c ≤ '9' := by
    unfold Char.isDigit at h
    rw [Bool.and_eq_true, decide_eq_true_eq, decide_eq_true_eq] at h
    exact h
  unfold Digit.value?
  rw [if_pos hrange]
  rfl

/-- Digits are read to the base of ten as they are written. -/
private theorem ofDigits_digits (n : Nat) : Digit.ofDigits 10 (Layout.digits n) = n := by
  -- The induction is on the digits, with what the ones in front of them write.
  have hfold (ds : List Char) (hds : ∀ c ∈ ds, c.isDigit = true) (start : Nat) :
      ds.foldl (fun n c => n * 10 + (Digit.value? c).getD 0) start
        = Nat.ofDigitChars 10 ds start := by
    induction ds generalizing start with
    | nil => rfl
    | cons c ds ih =>
      obtain ⟨hc, hds⟩ := List.forall_mem_cons.1 hds
      rw [List.foldl_cons, Nat.ofDigitChars_cons, getD_value? hc, ih hds, Nat.mul_comm]
  exact (hfold _ (isDigit_digits n) 0).trans Nat.ofDigitChars_ten_toDigits

/-- A number is put together again from its size and its sign. -/
private theorem signed_natAbs (n : Int) :
    (if decide (n < 0) then -(n.natAbs : Int) else (n.natAbs : Int)) = n := by
  by_cases hn : n < 0
  · rw [decide_eq_true hn, if_pos rfl]
    omega
  · rw [decide_eq_false hn, if_neg Bool.false_ne_true]
    omega

/-- An exponent is read as it is written, if the numeral ends after it. -/
private theorem exponent?_append (exponent : Option Int) {rest : List Char} (hrest : Ends rest) :
    exponent? (exponentChars exponent ++ rest) = some (exponent, rest) := by
  cases exponent with
  | none =>
    change exponent? rest = _
    cases rest with
    | nil => rfl
    | cons c rest =>
      obtain ⟨-, -, he, hE⟩ := hrest c rfl
      rw [exponent?, if_neg (not_or.2 ⟨he, hE⟩)]
  | some e =>
    have hrun : digitRun (Layout.digits e.natAbs ++ rest) = (Layout.digits e.natAbs, rest) :=
      digitRun_append_of_stop (isDigit_digits _) fun c hc => (hrest c hc).1
    -- The sign is always written, a plus as well as a minus.
    have hsign : exponentSign ((if e < 0 then '-' else '+') :: (Layout.digits e.natAbs ++ rest))
        = (decide (e < 0), Layout.digits e.natAbs ++ rest) := by
      by_cases he : e < 0
      · rw [if_pos he, decide_eq_true he]
        rfl
      · rw [if_neg he, decide_eq_false he]
        rfl
    change exponent? ('e' :: ((if e < 0 then '-' else '+') :: (Layout.digits e.natAbs ++ rest))) = _
    rw [exponent?, if_pos (.inl rfl), hsign]
    simp only
    rw [hrun]
    have hne : Layout.digits e.natAbs ≠ [] := Nat.toDigits_ne_nil
    -- There is a digit at least, so that the exponent is taken for one.
    generalize hds : Layout.digits e.natAbs = ds at hne
    cases ds with
    | nil => exact absurd rfl hne
    | cons d ds =>
      simp only
      rw [← hds, ofDigits_digits, signed_natAbs]

/-- Behind a fraction stands no digit and no point. -/
private theorem head?_exponentChars (exponent : Option Int) {rest : List Char} (hrest : Ends rest) :
    ∀ c, (exponentChars exponent ++ rest).head? = some c → c.isDigit = false ∧ c ≠ '.' := by
  cases exponent with
  | none => exact fun c hc => ⟨(hrest c hc).1, (hrest c hc).2.1⟩
  | some e =>
    intro c hc
    cases hc
    decide

/-- Behind the digits of the whole part stands no digit. -/
private theorem head?_fractionChars (fraction : Option (List Char)) {rest : List Char}
    (hrest : ∀ c, rest.head? = some c → c.isDigit = false) :
    ∀ c, (fractionChars fraction ++ rest).head? = some c → c.isDigit = false := by
  cases fraction with
  | none => exact hrest
  | some ds =>
    intro c hc
    cases hc
    decide

/-- The sign is written before all else. -/
private theorem signChars_append (negative : Bool) (cs rest : List Char) :
    signChars negative cs ++ rest = signChars negative (cs ++ rest) := by
  cases negative <;> rfl

/-- The sign is split off the digits. -/
private theorem Parts.minus_chars (p : Parts) (negative : Bool) (rest : List Char) :
    minus (signChars negative p.chars ++ rest) = (negative,
      p.whole ++ (fractionChars p.fraction ++ (exponentChars p.exponent ++ rest))) := by
  rw [signChars_append, chars, List.append_assoc, List.append_assoc]
  have hwhole := p.isWhole
  cases hp : p.whole with
  | nil =>
    rw [hp] at hwhole
    exact nomatch hwhole
  | cons c more =>
    exact minus_signChars negative (p.isDigit_whole c (by rw [hp]; exact List.mem_cons_self)) _

/-- The parts of a numeral are read back. -/
theorem Parts.scan_chars (p : Parts) (negative : Bool) {rest : List Char} (hrest : Ends rest) :
    scan (signChars negative p.chars ++ rest)
      = some (number? negative p.whole p.fraction p.exponent, rest) := by
  -- Each part ends where the next one starts, as none starts with a digit.
  have hexponent := head?_exponentChars p.exponent hrest
  have hfraction := head?_fractionChars p.fraction fun c hc => (hexponent c hc).1
  unfold scan
  rw [p.minus_chars]
  simp only
  rw [digitRun_append_of_stop p.isDigit_whole hfraction]
  simp only
  rw [if_pos p.isWhole, fraction?_append p.isDigit_fraction hexponent]
  change (exponent? (exponentChars p.exponent ++ rest)).bind _ = _
  rw [exponent?_append p.exponent hrest]
  rfl

/-! ### The number of the parts -/

/-- More digits only make a number greater. -/
private theorem le_ofDigitChars (ds : List Char) (n : Nat) : n ≤ Nat.ofDigitChars 10 ds n := by
  rw [Nat.ofDigitChars_eq_ofDigitChars_zero]
  exact Nat.le_trans (Nat.le_mul_of_pos_left _ (Nat.pow_pos (by decide))) (Nat.le_add_right _ _)

/-- Digits that write a number of 64 bits are all taken. -/
private theorem absorb_eq {significand : Nat} {ds : List Char}
    (h : Nat.ofDigitChars 10 ds significand < 0x10000000000000000) :
    Decimal.absorb significand ds = (Nat.ofDigitChars 10 ds significand, []) := by
  induction ds generalizing significand with
  | nil => rw [Nat.ofDigitChars_nil, Decimal.absorb]
  | cons d ds ih =>
    rw [Nat.ofDigitChars_cons] at h ⊢
    rw [Decimal.absorb, Decimal.digitValue, Nat.mul_comm significand 10]
    -- What has been taken so far is no greater than the whole.
    rw [if_pos (Nat.lt_of_le_of_lt (le_ofDigitChars _ _) h), ih h]

/-- With a fraction the number is the one that all digits write, with a power of ten. -/
theorem number?_fraction {whole ds : List Char}
    (h : Nat.ofDigitChars 10 (whole ++ ds) 0 < 0x10000000000000000) (negative : Bool)
    (exponent : Option Int) :
    number? negative whole (some ds) exponent
      = (scaled (Nat.ofDigitChars 10 (whole ++ ds) 0) (exponent.getD 0 - ds.length)).map
        fun x => .real (if negative then -x else x) := by
  rw [Nat.ofDigitChars_append] at h ⊢
  unfold number?
  rw [absorb_eq (Nat.lt_of_le_of_lt (le_ofDigitChars _ _) h)]
  simp only
  rw [absorb_eq h]
  simp only [List.length_nil, Nat.sub_zero]
  congr 2
  omega

/-- Without a fraction it is the one that the digits write, with a power of ten. -/
theorem number?_exponent {whole : List Char}
    (h : Nat.ofDigitChars 10 whole 0 < 0x10000000000000000) (negative : Bool) (e : Int) :
    number? negative whole none (some e)
      = (scaled (Nat.ofDigitChars 10 whole 0) e).map
        fun x => .real (if negative then -x else x) := by
  unfold number?
  rw [absorb_eq h]
  simp only [List.length_nil]
  congr 2
  omega

/-- The digits of a positive number do not start with a zero. -/
private theorem head?_toDigits {n : Nat} (h : 0 < n) : (Nat.toDigits 10 n).head? ≠ some '0' := by
  -- The induction is on the digits: the last one is taken off until only the first is left.
  induction n using Nat.base_induction 10 (by decide) with
  | single m hm =>
    rw [Nat.toDigits_of_lt_base hm, List.head?_cons]
    intro hzero
    have hvalue := Nat.toNat_digitChar_sub_48_of_lt_ten hm
    rw [Option.some.inj hzero] at hvalue
    exact absurd hvalue (Nat.ne_of_lt h)
  | digit m k hk hm ih =>
    rw [← Nat.toDigits_append_toDigits (by decide) hm hk]
    intro hzero
    cases hdigits : Nat.toDigits 10 m with
    | nil => exact absurd hdigits Nat.toDigits_ne_nil
    | cons d ds =>
      rw [hdigits] at hzero
      apply ih hm
      rw [hdigits]
      exact hzero

theorem exists_cons_digits {n : Nat} (h : 0 < n) :
    ∃ c ds, Layout.digits n = c :: ds ∧ c ≠ '0' := by
  have hhead := head?_toDigits h
  unfold Layout.digits
  cases hdigits : Nat.toDigits 10 n with
  | nil => exact absurd hdigits Nat.toDigits_ne_nil
  | cons c ds =>
    rw [hdigits] at hhead
    exact ⟨c, ds, rfl, fun hc => hhead (congrArg some hc)⟩

theorem isWhole_cons {c : Char} (hc : c ≠ '0') (ds : List Char) :
    isWhole (c :: ds) = true := by
  unfold isWhole
  rw [Bool.and_eq_true, Bool.or_eq_true]
  exact ⟨rfl, .inl (bne_iff_ne.2 fun heq => hc (Option.some.inj heq))⟩

theorem isWhole_digits (n : Nat) : isWhole (Layout.digits n) = true := by
  -- Only zero is written with a zero in front.
  rcases Nat.eq_zero_or_pos n with rfl | hpos
  · rfl
  · obtain ⟨c, ds, hdigits, hc⟩ := exists_cons_digits hpos
    rw [hdigits]
    exact isWhole_cons hc ds

/-- The parts of a whole number. -/
def Parts.ofNat (n : Nat) : Parts where
  whole := Layout.digits n
  fraction := none
  exponent := none
  isDigit_whole := isDigit_digits n
  isWhole := isWhole_digits n
  isDigit_fraction := nofun

end Numeral

/-- Every integer is read back. -/
theorem Number.legible_int (n : Int) (fits : FitsWord n) : (Number.int n fits).Legible := by
  intro rest hrest
  have hwrite : (Number.int n fits).write
      = Numeral.signChars (decide (n < 0)) (Numeral.Parts.ofNat n.natAbs).chars := by
    have hchars : (Numeral.Parts.ofNat n.natAbs).chars = Layout.digits n.natAbs := by
      simp [Numeral.Parts.chars, Numeral.Parts.ofNat, Numeral.fractionChars, Numeral.exponentChars]
    simp only [Number.write, writeInt, Numeral.signChars, hchars, decide_eq_true_eq]
  have hfits : n.natAbs < 0x10000000000000000 := by
    unfold FitsWord at fits
    omega
  rw [hwrite, Numeral.Parts.scan_chars _ _ hrest]
  -- All digits are taken, and the number is not the negative zero.
  have hvalue : Nat.ofDigitChars 10 (Layout.digits n.natAbs) 0 = n.natAbs :=
    Nat.ofDigitChars_ten_toDigits
  have habsorb : Decimal.absorb 0 (Layout.digits n.natAbs) = (n.natAbs, []) := by
    rw [Numeral.absorb_eq (by rw [hvalue]; exact hfits), hvalue]
  change some (Numeral.number? (decide (n < 0)) (Layout.digits n.natAbs) none none, rest) = _
  unfold Numeral.number?
  rw [habsorb]
  simp only [List.isEmpty_nil, if_true]
  rw [dif_pos]
  · simp only [Numeral.signed_natAbs]
  · rw [Numeral.signed_natAbs, decide_eq_true_eq]
    exact ⟨fits, by omega⟩

end Scorecard.Json
