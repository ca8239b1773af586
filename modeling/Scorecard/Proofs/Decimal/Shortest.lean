import Mathlib
import Scorecard.Decimal.Shortest

/-!
# The digits of shortest decimals

The search for the shortest decimal starts at the exponent of the first digit, which is estimated
from the number of binary digits and corrected by one. So no decimal that it looks at has more than
eighteen digits, and the one it takes is not zero and lies no further above the number than what
reads back.

* `Spread.firstExponent_spec`: the exponent of the first digit.
* `Spread.Found`: what is known of a decimal that the search takes.
* `shortest_spec`: the shortest decimal of a number.
-/

namespace Scorecard.Decimal

/-- The number that the decimal stands for. -/
def Scientific.worth (d : Scientific) : ℚ := d.digits * 10 ^ d.exponent

/-! ### Powers of ten and of two -/

/-- A power with an exponent of either sign is a fraction. -/
private theorem zpow_eq_div {b : ℚ} (hb : b ≠ 0) (k : ℤ) :
    b ^ k = b ^ k.toNat / b ^ (-k).toNat := by
  rw [eq_div_iff (pow_ne_zero _ hb), ← zpow_natCast, ← zpow_natCast, ← zpow_add₀ hb]
  congr 1
  omega

/-- Two exponents can change places. -/
private theorem zpow_pow_comm (b : ℚ) (k : ℤ) (n : ℕ) : (b ^ k) ^ n = (b ^ n) ^ k := by
  rw [← zpow_natCast, ← zpow_natCast, zpow_comm]

/-- The logarithm of two to the base of ten lies between the fractions `31 / 103` and `28 / 93`. -/
private theorem ten_zpow_le_two_zpow {a b : ℤ} (hlow : 103 * a ≤ 31 * b)
    (hhigh : 93 * a ≤ 28 * b) : (10 : ℚ) ^ a ≤ 2 ^ b := by
  -- Below zero the order of powers is the other way round, and the other fraction counts.
  rcases le_total 0 b with hb | hb
  · refine le_of_pow_le_pow_left₀ (n := 103) (by norm_num) (by positivity) ?_
    calc ((10 : ℚ) ^ a) ^ 103 = 10 ^ (103 * a) := by rw [mul_comm, zpow_mul]; rfl
      _ ≤ 10 ^ (31 * b) := zpow_le_zpow_right₀ (by norm_num) hlow
      _ = (10 ^ 31) ^ b := by rw [zpow_mul]; rfl
      _ ≤ (2 ^ 103) ^ b := zpow_le_zpow_left₀ hb (by positivity) (by norm_num)
      _ = (2 ^ b) ^ 103 := (zpow_pow_comm 2 b 103).symm
  · refine le_of_pow_le_pow_left₀ (n := 93) (by norm_num) (by positivity) ?_
    calc ((10 : ℚ) ^ a) ^ 93 = 10 ^ (93 * a) := by rw [mul_comm, zpow_mul]; rfl
      _ ≤ 10 ^ (28 * b) := zpow_le_zpow_right₀ (by norm_num) hhigh
      _ = (10 ^ 28) ^ b := by rw [zpow_mul]; rfl
      _ ≤ (2 ^ 93) ^ b := by
        rw [← neg_neg b, zpow_neg, zpow_neg _ (-b)]
        exact inv_anti₀ (by positivity)
          (zpow_le_zpow_left₀ (neg_nonneg.2 hb) (by positivity) (by norm_num))
      _ = (2 ^ b) ^ 93 := (zpow_pow_comm 2 b 93).symm

/-- A power of two is below a power of ten if the exponents are in proportion; the fractions lie on
both sides of the logarithm. -/
private theorem two_zpow_le_ten_zpow {a b : ℤ} (hlow : 31 * b ≤ 103 * a)
    (hhigh : 28 * b ≤ 93 * a) : (2 : ℚ) ^ b ≤ 10 ^ a := by
  have h := ten_zpow_le_two_zpow (a := -a) (b := -b) (by omega) (by omega)
  rw [zpow_neg, zpow_neg] at h
  exact (inv_le_inv₀ (by positivity) (by positivity)).1 h

/-! ### The first digit -/

namespace Spread

variable {s : Spread}

/-- The number whose decimals are looked for. -/
def worth (s : Spread) : ℚ := s.value / s.den

theorem reaches_iff (hden : 0 < s.den) (e : ℤ) : s.reaches e = true ↔ (10 : ℚ) ^ e ≤ s.worth := by
  have hden' : (0 : ℚ) < s.den := by exact_mod_cast hden
  unfold reaches scale worth
  simp only [decide_eq_true_eq]
  rw [zpow_eq_div (by norm_num), div_le_div_iff₀ (by positivity) hden', one_mul]
  norm_cast
  rw [mul_comm s.den]
  rfl

/-- The number of binary digits fixes the number up to a factor of four. -/
private theorem worth_bounds (hvalue : 0 < s.value) (hden : 0 < s.den) :
    let bits : ℤ := (s.value.log2 : ℤ) - (s.den.log2 : ℤ)
    (2 : ℚ) ^ (bits - 1) ≤ s.worth ∧ s.worth < 2 ^ (bits + 1) := by
  intro bits
  have hvalue' := Nat.log2_self_le hvalue.ne'
  have hden' := Nat.log2_self_le hden.ne'
  constructor
  · rw [show bits - 1 = (s.value.log2 : ℤ) - (s.den.log2 + 1 : ℕ) by push_cast; omega,
      zpow_sub₀ two_ne_zero, zpow_natCast, zpow_natCast]
    apply div_le_div₀ (Nat.cast_nonneg _) (by exact_mod_cast hvalue') (by exact_mod_cast hden)
    exact_mod_cast (Nat.lt_log2_self (n := s.den)).le
  · rw [show bits + 1 = (s.value.log2 + 1 : ℕ) - (s.den.log2 : ℤ) by push_cast; omega,
      zpow_sub₀ two_ne_zero, zpow_natCast, zpow_natCast]
    apply div_lt_div₀ (by exact_mod_cast Nat.lt_log2_self (n := s.value)) _ (by positivity)
      (by positivity)
    exact_mod_cast hden'

/-- The number lies between the power of ten of its first digit and the next one. -/
theorem firstExponent_spec (hvalue : 0 < s.value) (hden : 0 < s.den)
    (hlow : -5000 ≤ (s.value.log2 : ℤ) - s.den.log2)
    (hhigh : (s.value.log2 : ℤ) - s.den.log2 ≤ 5000) :
    (10 : ℚ) ^ s.firstExponent ≤ s.worth ∧ s.worth < 10 ^ (s.firstExponent + 1) := by
  obtain ⟨hge, hlt⟩ := worth_bounds hvalue hden
  unfold firstExponent
  set bits : ℤ := (s.value.log2 : ℤ) - s.den.log2 with hbits
  simp only
  set guess := bits * 30103 / 100000 with hguess
  split
  · next hnext =>
    refine ⟨(reaches_iff hden _).1 hnext, hlt.trans_le ?_⟩
    exact two_zpow_le_ten_zpow (by omega) (by omega)
  · next hnext =>
    have hbelow := lt_of_not_ge (mt (reaches_iff hden _).2 hnext)
    split
    · next hreaches => exact ⟨(reaches_iff hden _).1 hreaches, hbelow⟩
    · next hreaches =>
      refine ⟨le_trans ?_ hge, ?_⟩
      · exact ten_zpow_le_two_zpow (by omega) (by omega)
      · rw [sub_add_cancel]
        exact lt_of_not_ge (mt (reaches_iff hden _).2 hreaches)

/-! ### The search -/

/-- The greatest number that may read back. -/
def top (s : Spread) : ℚ := s.high / s.den

/-- A decimal that reads back is not zero, and it is not above the bound. -/
private theorem pos_and_le_top_of_holds (hlow : 0 < s.low) (hden : 0 < s.den) {n : ℕ} {k : ℤ}
    (h : s.holds n k = true) : 0 < n ∧ (n : ℚ) * 10 ^ k ≤ s.top := by
  have hbounds : s.low * 10 ^ (-k).toNat ≤ n * s.den * 10 ^ k.toNat ∧
      n * s.den * 10 ^ k.toNat ≤ s.high * 10 ^ (-k).toNat := by
    unfold holds scale at h
    simp only at h
    split at h
    · rw [Bool.and_eq_true, decide_eq_true_eq, decide_eq_true_eq] at h
      exact h
    · rw [Bool.and_eq_true, decide_eq_true_eq, decide_eq_true_eq] at h
      exact ⟨h.1.le, h.2.le⟩
  obtain ⟨hge, hle⟩ := hbounds
  constructor
  · by_contra hn
    rw [Nat.eq_zero_of_not_pos hn, zero_mul, zero_mul] at hge
    have hpos := Nat.mul_pos hlow (Nat.pow_pos (n := (-k).toNat) (by norm_num : 0 < 10))
    exact absurd hge (Nat.not_le.2 hpos)
  · have hden' : (0 : ℚ) < s.den := by exact_mod_cast hden
    unfold top
    rw [zpow_eq_div (by norm_num), ← mul_div_assoc, div_le_div_iff₀ (by positivity) hden',
      mul_right_comm]
    exact_mod_cast hle

/-- The floor on a grid is the greatest decimal of the grid that is not above the number. -/
private theorem floorAt_spec (hden : 0 < s.den) (k : ℤ) :
    (s.floorAt k : ℚ) * 10 ^ k ≤ s.worth ∧ s.worth < (s.floorAt k + 1) * 10 ^ k := by
  have hden' : (0 : ℚ) < s.den := by exact_mod_cast hden
  have hstep : 0 < s.den * 10 ^ k.toNat := Nat.mul_pos hden (Nat.pow_pos (by norm_num))
  have hfloor : s.floorAt k = s.value * 10 ^ (-k).toNat / (s.den * 10 ^ k.toNat) := rfl
  unfold worth
  rw [zpow_eq_div (by norm_num), ← mul_div_assoc, ← mul_div_assoc,
    div_le_div_iff₀ (by positivity) hden', div_lt_div_iff₀ hden' (by positivity), mul_assoc,
    mul_assoc, mul_comm ((10 : ℚ) ^ k.toNat), hfloor]
  constructor
  · exact_mod_cast Nat.div_mul_le_self _ _
  · exact_mod_cast (Nat.div_lt_iff_lt_mul hstep).1 (Nat.lt_succ_self _)

/-- The neighbour that is chosen is one of the two, and it reads back. -/
private theorem choose_spec {tie : Tie} {k : ℤ} {n : ℕ} (h : s.choose tie k = some n) :
    (n = s.floorAt k ∨ n = s.floorAt k + 1) ∧ s.holds n k = true := by
  unfold choose at h
  simp only at h
  split at h
  · exact nomatch h
  · next hfloor _ =>
    cases h
    exact ⟨.inl rfl, hfloor⟩
  · next _ hnext =>
    cases h
    exact ⟨.inr rfl, hnext⟩
  · next hfloor hnext =>
    -- Both read back, and whichever is taken is one of the two.
    have hor : n = s.floorAt k ∨ n = s.floorAt k + 1 := by
      cases tie <;> split_ifs at h <;> cases h <;> simp
    refine ⟨hor, ?_⟩
    rcases hor with rfl | rfl
    · exact hfloor
    · exact hnext

/-- The bounds lie on the two sides of the number. -/
structure Sound (s : Spread) : Prop where
  den : 0 < s.den
  low : 0 < s.low
  value : s.low ≤ s.value
  high : s.value ≤ s.high

/-- What is known of a decimal that the search takes: it is not zero, it is not above the bound, and
it is one of the two neighbours of the number on its grid. -/
structure Found (s : Spread) (d : Scientific) : Prop where
  pos : 0 < d.digits
  le_top : d.worth ≤ s.top
  neighbour : d.digits = s.floorAt d.exponent ∨ d.digits = s.floorAt d.exponent + 1

theorem Sound.worth_le_top (h : s.Sound) : s.worth ≤ s.top :=
  div_le_div_of_nonneg_right (by exact_mod_cast h.high) (Nat.cast_nonneg _)

/-- What is chosen is found. -/
private theorem Sound.found_of_choose (hs : s.Sound) {tie : Tie} {k : ℤ} {n : ℕ}
    (h : s.choose tie k = some n) : s.Found ⟨n, k⟩ := by
  obtain ⟨hneighbour, hholds⟩ := choose_spec h
  obtain ⟨hpos, hle⟩ := pos_and_le_top_of_holds hs.low hs.den hholds
  exact ⟨hpos, hle, hneighbour⟩

/-- The lower neighbour is found, unless it is zero. -/
private theorem Sound.found_floorAt (hs : s.Sound) {k : ℤ} (hk : (10 : ℚ) ^ k ≤ s.worth) :
    s.Found ⟨s.floorAt k, k⟩ := by
  obtain ⟨hle, hlt⟩ := floorAt_spec hs.den k
  refine ⟨?_, hle.trans hs.worth_le_top, .inl rfl⟩
  -- A whole step of the grid lies below the number.
  by_contra hzero
  change ¬ 0 < s.floorAt k at hzero
  rw [Nat.eq_zero_of_not_pos hzero, Nat.cast_zero, zero_add, one_mul] at hlt
  exact absurd hk (not_le.2 hlt)

/-- From a grid that is not coarser than the first digit the search takes a decimal of this grid or
of one of those it may still look at. -/
private theorem Sound.found_search (hs : s.Sound) (tie : Tie) (fuel : ℕ) {k : ℤ}
    (hk : (10 : ℚ) ^ k ≤ s.worth) :
    s.Found (s.search tie fuel k) ∧ k - fuel ≤ (s.search tie fuel k).exponent := by
  induction fuel generalizing k with
  | zero =>
    -- On the last grid the floor is taken if neither neighbour reads back.
    unfold search
    cases hchoose : s.choose tie k with
    | some n => exact ⟨hs.found_of_choose hchoose, by simp⟩
    | none => exact ⟨hs.found_floorAt hk, by simp⟩
  | succ fuel ih =>
    unfold search
    cases hchoose : s.choose tie k with
    | some n =>
      refine ⟨hs.found_of_choose hchoose, ?_⟩
      simp only
      omega
    | none =>
      have hfiner : (10 : ℚ) ^ (k - 1) ≤ s.worth :=
        (zpow_le_zpow_right₀ (by norm_num) (by omega)).trans hk
      obtain ⟨hfound, hge⟩ := ih hfiner
      refine ⟨hfound, ?_⟩
      push_cast
      omega

/-- On a grid that is not much finer than the first digit the neighbours have few digits. -/
private theorem Found.digits_le {d : Scientific} (h : s.Found d) (hden : 0 < s.den) {e : ℤ} {n : ℕ}
    (hworth : s.worth < 10 ^ e) (he : e ≤ d.exponent + n) : d.digits ≤ 10 ^ n := by
  have hfloor := (floorAt_spec hden d.exponent).1.trans_lt hworth
  have hlt : (s.floorAt d.exponent : ℚ) < (10 ^ n : ℕ) := by
    have hle : (10 : ℚ) ^ e ≤ (10 ^ n : ℕ) * 10 ^ d.exponent := by
      rw [Nat.cast_pow, Nat.cast_ofNat, ← zpow_natCast, ← zpow_add₀ (by norm_num)]
      exact zpow_le_zpow_right₀ (by norm_num) (by omega)
    exact lt_of_mul_lt_mul_right (hfloor.trans_le hle) (by positivity)
  have hlt' : s.floorAt d.exponent < 10 ^ n := by exact_mod_cast hlt
  rcases h.neighbour with heq | heq
  · omega
  · omega

end Spread

/-! ### Zeros at the end -/

namespace Scientific

/-- Without its zeros at the end a decimal stands for the same number. -/
private theorem stripZeros_spec (fuel : ℕ) {d : Scientific} (h : 0 < d.digits) :
    0 < (d.stripZeros fuel).digits ∧ (d.stripZeros fuel).digits ≤ d.digits ∧
      (d.stripZeros fuel).worth = d.worth := by
  induction fuel generalizing d with
  | zero => exact ⟨h, le_rfl, rfl⟩
  | succ fuel ih =>
    unfold stripZeros
    split
    · next hzero =>
      have htens : d.digits = d.digits / 10 * 10 := by omega
      obtain ⟨hpos, hle, hworth⟩ := ih (d := ⟨d.digits / 10, d.exponent + 1⟩) (by simp only; omega)
      refine ⟨hpos, hle.trans (Nat.div_le_self _ _), hworth.trans ?_⟩
      unfold worth
      simp only
      rw [zpow_add_one₀ (by norm_num)]
      have hcast : (d.digits : ℚ) = (d.digits / 10 : ℕ) * 10 := by exact_mod_cast htens
      rw [hcast]
      ring
    · exact ⟨h, le_rfl, rfl⟩

end Scientific

/-! ### Shortest decimals -/

/-- The spread of a number of 53 bits. -/
private theorem sound_ofBinary {m : ℕ} (hm : 0 < m) (q : ℤ) : (Spread.ofBinary m q).Sound := by
  have hunit : 0 < Nat.pow 2 q.toNat := Nat.pow_pos two_pos
  have hden : 0 < Nat.pow 2 (-q).toNat := Nat.pow_pos two_pos
  unfold Spread.ofBinary
  refine ⟨by simp only; omega, Nat.mul_pos ?_ hunit, ?_, ?_⟩
  · split <;> omega
  · exact Nat.mul_le_mul_right _ (Nat.sub_le _ _)
  · exact Nat.mul_le_mul_right _ (by omega)

/-- The upper end of the spread lies half a unit above. -/
private theorem top_ofBinary (m : ℕ) (q : ℤ) :
    (Spread.ofBinary m q).top = (m + 1 / 2) * 2 ^ q := by
  have hhigh : (Spread.ofBinary m q).high = (4 * m + 2) * 2 ^ q.toNat := rfl
  have hden : (Spread.ofBinary m q).den = 4 * 2 ^ (-q).toNat := rfl
  unfold Spread.top
  rw [hhigh, hden, zpow_eq_div two_ne_zero]
  push_cast
  field_simp
  ring

/-- The number of binary digits of a number of 53 bits. -/
private theorem bits_ofBinary {m : ℕ} (hm : 0 < m) (hm' : m < 2 ^ 53) (q : ℤ) :
    q ≤ ((Spread.ofBinary m q).value.log2 : ℤ) - (Spread.ofBinary m q).den.log2 ∧
      ((Spread.ofBinary m q).value.log2 : ℤ) - (Spread.ofBinary m q).den.log2 ≤ q + 52 := by
  have hvalue : (Spread.ofBinary m q).value = 4 * m * 2 ^ q.toNat := rfl
  have hden : (Spread.ofBinary m q).den = 4 * 2 ^ (-q).toNat := rfl
  have hlog : (4 * 2 ^ (-q).toNat).log2 = (-q).toNat + 2 := by
    rw [show 4 * 2 ^ (-q).toNat = 2 ^ ((-q).toNat + 2) by rw [pow_add]; ring, Nat.log2_two_pow]
  have hlow : q.toNat + 2 ≤ (4 * m * 2 ^ q.toNat).log2 := by
    rw [Nat.le_log2 (by positivity), pow_add, mul_comm]
    exact Nat.mul_le_mul_right _ (by omega)
  have hhigh : (4 * m * 2 ^ q.toNat).log2 < q.toNat + 55 := by
    rw [Nat.log2_lt (by positivity), pow_add, mul_comm (2 ^ q.toNat)]
    exact Nat.mul_lt_mul_of_pos_right (by omega) (Nat.pow_pos two_pos)
  rw [hvalue, hden, hlog]
  omega

/-- The shortest decimal of a number is not zero, has its digits in 64 bits and lies no further
above the number than half the way to the next one. -/
theorem shortest_spec (tie : Tie) {m : ℕ} (hm : 0 < m) (hm' : m < 2 ^ 53) {q : ℤ} (hq : -1074 ≤ q)
    (hq' : q ≤ 971) :
    0 < (shortest tie m q).digits ∧ (shortest tie m q).digits < 2 ^ 64 ∧
      (shortest tie m q).worth ≤ (m + 1 / 2) * 2 ^ q := by
  have hs := sound_ofBinary hm q
  have hvalue : 0 < (Spread.ofBinary m q).value := hs.low.trans_le hs.value
  obtain ⟨hbits, hbits'⟩ := bits_ofBinary hm hm' q
  obtain ⟨hge, hlt⟩ := Spread.firstExponent_spec hvalue hs.den (by omega) (by omega)
  obtain ⟨hfound, hexponent⟩ := hs.found_search tie 16 hge
  -- Seventeen digits in front of the end of the finest grid.
  have hdigits := hfound.digits_le hs.den (n := 17) hlt (by push_cast at hexponent; omega)
  obtain ⟨hpos, hle, hworth⟩ := Scientific.stripZeros_spec 20 hfound.pos
  unfold shortest
  rw [if_neg hm.ne', hworth, ← top_ofBinary]
  exact ⟨hpos, (hle.trans hdigits).trans_lt (by norm_num), hfound.le_top⟩

end Scorecard.Decimal
