import Scorecard.Proofs.Binary64.Mantissa

/-!
# Operations on numbers taken apart

Sum, difference, product and quotient of two numbers that stand for rational numbers stand for the
exact result, rounded.

* `Denotes.add`, `Denotes.sub`, `Denotes.mul`, `Denotes.div`: the four operations.
* `Denotes.rounded_self`: what a number stands for is not changed by rounding.
-/

namespace Scorecard.Binary64

open Float.Model Float.Model.UnpackedFloat

/-! ### Signs -/

/-- A sign applied to a number is a factor of the number. -/
private theorem cast_apply (s : Sign) (n : ℕ) : ((s.apply n : ℤ) : ℚ) = factor s * n := by
  cases s <;> simp [Sign.apply, factor]

/-- The factor of a sign is not zero. -/
private theorem factor_ne_zero (s : Sign) : factor s ≠ 0 := by
  cases s <;> norm_num [factor]

/-- The opposite sign has the opposite factor. -/
private theorem factor_neg (s : Sign) : factor (-s) = -factor s := by
  cases s
  · change (1 : ℚ) = -(-1)
    norm_num
  · rfl

/-- The sign of a quotient has the quotient of the factors. -/
private theorem factor_div (s t : Sign) : factor (s / t) = factor s / factor t := by
  cases s <;> cases t
  · change (1 : ℚ) = -1 / -1
    norm_num
  · change (-1 : ℚ) = -1 / 1
    norm_num
  · change (-1 : ℚ) = 1 / -1
    norm_num
  · change (1 : ℚ) = 1 / 1
    norm_num

/-- Rounding commutes with signs. -/
private theorem rounded_factor_mul (s : Sign) (q : ℚ) :
    factor s * rounded q = rounded (factor s * q) := by
  cases s
  · rw [factor, neg_one_mul, neg_one_mul, rounded_neg]
  · rw [factor, one_mul, one_mul]

/-! ### Numbers -/

/-- What a number stands for is not changed by rounding. -/
theorem Denotes.rounded_self {a : UnpackedFloat} {p : ℚ} (ha : Denotes a p) : rounded p = p := by
  cases ha with
  | zero s => exact rounded_zero
  | finite s hm h =>
    rename_i m e
    rw [← rounded_factor_mul]
    congr 1
    have := rounded_eq_self (m := m) (e := e) (by rw [Nat.abs_cast]; exact_mod_cast h.lt) h.le
    exact_mod_cast this

/-- A number that stands for zero is one of the two zeros. -/
theorem Denotes.eq_zero {a : UnpackedFloat} (ha : Denotes a 0) : ∃ s, a = .zero s := by
  generalize hp : (0 : ℚ) = p at ha
  cases ha with
  | zero s => exact ⟨s, rfl⟩
  | finite s hm h =>
    rename_i m e
    -- The mantissa of a number that is no zero has a bit.
    have hm' : (m : ℚ) ≠ 0 := by exact_mod_cast hm.ne'
    have hne := mul_ne_zero (factor_ne_zero s) (mul_ne_zero hm' (two_zpow_pos e).ne')
    exact absurd hp.symm hne

/-- A number with the other sign stands for the opposite number. -/
theorem Denotes.neg {a : UnpackedFloat} {p : ℚ} (ha : Denotes a p) :
    Denotes (UnpackedFloat.neg a) (-p) := by
  cases ha with
  | zero s =>
    rw [neg_zero]
    exact .zero _
  | finite s hm h =>
    rw [← neg_mul, ← factor_neg]
    exact .finite _ hm h

/-! ### Sums and differences -/

/-- A mantissa moved down to a lower exponent. -/
private theorem decreaseExponent_value {m : ℕ} {e t : ℤ} (h : t ≤ e) (s : Sign) :
    (((s.apply (decreaseExponent m e t).1 : ℤ)) : ℚ) * 2 ^ t = factor s * (m * 2 ^ e) := by
  obtain ⟨d, hd⟩ : ∃ d : ℕ, e = d + t := ⟨(e - t).toNat, by omega⟩
  rw [cast_apply]
  simp only [decreaseExponent]
  rw [hd, show ((d : ℤ) + t - t).toNat = d by omega, Nat.shiftLeft_eq, two_zpow_add]
  push_cast
  ring

/-- The sum of two numbers stands for the sum, rounded. -/
theorem Denotes.add {a b : UnpackedFloat} {p q : ℚ} (ha : Denotes a p) (hb : Denotes b q) :
    Denotes (UnpackedFloat.add .binary64 a b) (rounded (p + q)) := by
  cases ha with
  | zero s =>
    rw [zero_add, hb.rounded_self]
    cases hb with
    | zero s' =>
      simp only [UnpackedFloat.add]
      split <;> exact .zero _
    | finite s' hm' h' => exact .finite s' hm' h'
  | finite s hm h =>
    cases hb with
    | zero s' =>
      rw [add_zero, (Denotes.finite s hm h).rounded_self]
      exact .finite s hm h
    | finite s' hm' h' =>
      rename_i m e m' e'
      -- Both mantissas are moved down to the lower exponent, where they are added exactly.
      have hsum := denotes_normalize
        (s.apply (decreaseExponent m e (min e e')).1
          + s'.apply (decreaseExponent m' e' (min e e')).1) (min e e')
      rw [Int.cast_add, add_mul, decreaseExponent_value (min_le_left _ _),
        decreaseExponent_value (min_le_right _ _)] at hsum
      exact hsum

/-- A difference is the sum with the opposite number. -/
theorem sub_eq_add_opposite (a b : UnpackedFloat) :
    UnpackedFloat.sub .binary64 a b = UnpackedFloat.add .binary64 a (UnpackedFloat.neg b) := by
  cases a with
  | notANumber => rfl
  | infinity s => cases b <;> rfl
  | zero s => cases b <;> rfl
  | finite s m e hm =>
    cases b with
    | finite s' m' e' hm' =>
      have happly (n : ℕ) : (-s').apply n = -s'.apply n := by
        cases s'
        · exact (Int.neg_neg n).symm
        · rfl
      simp only [UnpackedFloat.sub, UnpackedFloat.add, UnpackedFloat.neg, happly,
        Int.sub_eq_add_neg]
    | _ => rfl

/-- The difference of two numbers stands for the difference, rounded. -/
theorem Denotes.sub {a b : UnpackedFloat} {p q : ℚ} (ha : Denotes a p) (hb : Denotes b q) :
    Denotes (UnpackedFloat.sub .binary64 a b) (rounded (p - q)) := by
  rw [sub_eq_add_opposite, sub_eq_add_neg]
  exact ha.add hb.neg

/-! ### Products -/

/-- The sign of a product has the product of the factors. -/
private theorem factor_mul (s t : Sign) : factor (s * t) = factor s * factor t := by
  cases s <;> cases t
  · change (1 : ℚ) = -1 * -1
    norm_num
  · change (-1 : ℚ) = -1 * 1
    norm_num
  · change (-1 : ℚ) = 1 * -1
    norm_num
  · change (1 : ℚ) = 1 * 1
    norm_num

/-- The product of two mantissas has enough places for its last one. -/
private theorem le_lastPlace_product {m m' : ℕ} {e e' : ℤ} (hm : 0 < m) (hm' : 0 < m')
    (h : IsCanonical m e) (h' : IsCanonical m' e') :
    e + e' ≤ lastPlace ((m * m' : ℕ) * 2 ^ (e + e')) := by
  have hpos : 0 < m * m' := Nat.mul_pos hm hm'
  unfold lastPlace
  rw [abs_of_pos (mul_pos (by exact_mod_cast hpos) (two_zpow_pos _)), log_mul_two_zpow hpos]
  -- Either one of the mantissas is full, or both stand at the lowest last place.
  have hfull (hle : 2 ^ 52 ≤ m * m') : 52 ≤ (m * m').log2 := (Nat.le_log2 hpos.ne').2 hle
  rcases h.full with hm52 | rfl
  · have := hfull (hm52.trans (Nat.le_mul_of_pos_right m hm'))
    omega
  · rcases h'.full with hm52 | rfl
    · have := hfull (hm52.trans (Nat.le_mul_of_pos_left m' hm))
      omega
    · omega

/-- The product of two numbers stands for the product, rounded. -/
theorem Denotes.mul {a b : UnpackedFloat} {p q : ℚ} (ha : Denotes a p) (hb : Denotes b q) :
    Denotes (UnpackedFloat.mul .binary64 a b) (rounded (p * q)) := by
  cases ha with
  | zero s =>
    rw [zero_mul, rounded_zero]
    cases hb with
    | zero s' => exact .zero _
    | finite s' hm' h' => exact .zero _
  | finite s hm h =>
    cases hb with
    | zero s' =>
      rw [mul_zero, rounded_zero]
      exact .zero _
    | finite s' hm' h' =>
      rename_i m e m' e'
      have hround := denotes_roundWithAccuracy (s * s') (holds_exact (m * m'))
        (by exact_mod_cast Nat.mul_pos hm hm') (le_lastPlace_product hm hm' h h')
      rw [rounded_factor_mul, factor_mul] at hround
      have hvalue : factor s * (m * 2 ^ e) * (factor s' * (m' * 2 ^ e'))
          = factor s * factor s' * ((m * m' : ℕ) * 2 ^ (e + e')) := by
        rw [zpow_add₀ two_ne_zero]
        push_cast
        ring
      rw [hvalue]
      exact hround

/-! ### Quotients -/

/-- A whole quotient and its rest stand for the quotient. -/
private theorem holds_quotient {n d : ℕ} (hd : 0 < d) :
    Holds (.ofMantissaAndAccuracy (n / d) (accuracyOfFraction (n % d) d)) ((n : ℚ) / d) := by
  have hd' : (d : ℚ) ≠ 0 := by exact_mod_cast hd.ne'
  have hn : (n : ℚ) / d = ((n / d : ℕ) : ℚ) + ((n % d : ℕ) : ℚ) / d := by
    rw [div_eq_iff hd', add_mul, div_mul_cancel₀ _ hd']
    exact_mod_cast (Nat.div_add_mod' n d).symm
  rw [hn]
  exact holds_fraction (Nat.mod_lt n hd)

/-- The quotient of two mantissas is computed to enough places for its last one. -/
private theorem le_lastPlace_quotient {m m' : ℕ} {e e' : ℤ} (hm : 0 < m) (hm' : 0 < m') :
    Format.binary64.targetExponent (totalExponent m e - totalExponent m' e')
      ≤ lastPlace (m * 2 ^ e / (m' * 2 ^ e')) := by
  have hp : (0 : ℚ) < m * 2 ^ e := mul_pos (by exact_mod_cast hm) (two_zpow_pos e)
  have hq : (0 : ℚ) < m' * 2 ^ e' := mul_pos (by exact_mod_cast hm') (two_zpow_pos e')
  -- The first bit of the quotient is not below the difference of the first bits, less one.
  have hlog : (m.log2 : ℤ) + e - (m'.log2 + 1 + e')
      ≤ Int.log 2 (m * 2 ^ e / (m' * 2 ^ e') : ℚ) := by
    rw [← Int.zpow_le_iff_le_log one_lt_two (div_pos hp hq), Nat.cast_ofNat,
      zpow_sub₀ two_ne_zero]
    apply div_le_div₀ hp.le _ hq _
    · rw [two_zpow_add]
      apply mul_le_mul_of_nonneg_right _ (two_zpow_pos e).le
      exact_mod_cast Nat.log2_self_le hm.ne'
    · rw [← Nat.cast_succ, two_zpow_add]
      apply mul_le_mul_of_nonneg_right _ (two_zpow_pos e').le
      exact_mod_cast (Nat.lt_log2_self (n := m')).le
  unfold lastPlace
  rw [abs_of_pos (div_pos hp hq)]
  simp only [Format.targetExponent, totalExponent, Format.mantissaBits, Format.minExponent]
  omega

/-- The quotient of two numbers stands for the quotient, rounded. -/
theorem Denotes.div {a b : UnpackedFloat} {p q : ℚ} (ha : Denotes a p) (hb : Denotes b q)
    (hq : q ≠ 0) : Denotes (UnpackedFloat.div .binary64 a b) (rounded (p / q)) := by
  cases hb with
  | zero s' => exact absurd rfl hq
  | finite s' hm' h' =>
    cases ha with
    | zero s =>
      rw [zero_div, rounded_zero]
      exact .zero _
    | finite s hm h =>
      rename_i m' e' m e
      -- The quotient is computed to the exponent `t`, for which zeros are put behind the mantissa.
      set t := min (e - e')
        (Format.binary64.targetExponent (totalExponent m e - totalExponent m' e')) with ht
      obtain ⟨d, hd⟩ : ∃ d : ℕ, e - e' = d + t := ⟨(e - e' - t).toNat, by omega⟩
      have hpos : 0 < m <<< d := by
        rw [Nat.shiftLeft_eq]
        positivity
      have hvalue : ((m <<< d : ℕ) : ℚ) / m' * 2 ^ t = m * 2 ^ e / (m' * 2 ^ e') := by
        rw [Nat.shiftLeft_eq, show e = d + t + e' by omega, zpow_add₀ two_ne_zero, two_zpow_add]
        push_cast
        have := (two_zpow_pos e').ne'
        have : (m' : ℚ) ≠ 0 := by exact_mod_cast hm'.ne'
        field_simp
      have hround := denotes_roundWithAccuracy (e := t) (s / s') (holds_quotient hm')
        (div_pos (by exact_mod_cast hpos) (by exact_mod_cast hm'))
        (by rw [hvalue]; exact (min_le_right _ _).trans (le_lastPlace_quotient hm hm'))
      rw [hvalue, rounded_factor_mul, factor_div, div_mul_div_comm] at hround
      have hdiv : UnpackedFloat.div .binary64 (.finite s m e hm) (.finite s' m' e' hm')
          = roundWithAccuracy .binary64 (s / s') (m <<< d / m') t
            (accuracyOfFraction (m <<< d % m') m') := by
        simp only [UnpackedFloat.div, divCore]
        rw [← ht, show (e - e' - t).toNat = d by omega]
      rw [hdiv]
      exact hround

end Scorecard.Binary64
