import Scorecard.Proofs.Binary64.Nearest

/-!
# Rounding to binary64

A rational number is rounded to 53 significant bits, or to fewer where its last place would lie
below `2 ^ (-1074)`. Nothing is said here of numbers that are too large; those are rounded as if
exponents had no end, and only packing the result tells whether it fits.

* `lastPlace`, `rounded`: the exponent of the last place, and the number rounded to it.
* `rounded_mono`: rounding never changes the order of two numbers.
* `rounded_eq_self`: a number of at most 53 bits is not changed.
-/

namespace Scorecard.Binary64

/-- The exponent of the last place that is kept of a number. -/
def lastPlace (q : ℚ) : ℤ := max (Int.log 2 |q| - 52) (-1074)

/-- The number rounded to its last place. -/
def rounded (q : ℚ) : ℚ := nearest (q / 2 ^ lastPlace q) * 2 ^ lastPlace q

/-! ### The last place -/

theorem two_zpow_pos (e : ℤ) : (0 : ℚ) < 2 ^ e := zpow_pos two_pos e

/-- Powers of two with a common exponent as their factor. -/
theorem two_zpow_add (d : ℕ) (e : ℤ) : (2 : ℚ) ^ (d + e) = 2 ^ d * 2 ^ e := by
  rw [zpow_add₀ two_ne_zero, zpow_natCast]

theorem lastPlace_neg (q : ℚ) : lastPlace (-q) = lastPlace q := by
  rw [lastPlace, abs_neg, lastPlace]

theorem le_lastPlace (q : ℚ) : -1074 ≤ lastPlace q := le_max_right _ _

/-- A number has at most 53 bits in front of the end of its last place. -/
theorem lt_of_lastPlace {q : ℚ} (h : 0 < q) : q < 2 ^ 53 * 2 ^ lastPlace q := by
  have hlog := Int.lt_zpow_succ_log_self (b := 2) one_lt_two q
  -- The first bit of `q` stands at most 52 places in front of the last one.
  have hle : (2 : ℚ) ^ (Int.log 2 q + 1) ≤ 2 ^ (((53 : ℕ) : ℤ) + lastPlace q) := by
    apply zpow_le_zpow_right₀ one_le_two
    have := le_max_left (Int.log 2 |q| - 52) (-1074)
    rw [← lastPlace, abs_of_pos h] at this
    push_cast
    omega
  rw [two_zpow_add] at hle
  exact_mod_cast hlog.trans_le hle

/-- A number whose last place is not the lowest one has 53 bits in front of its end. -/
theorem le_of_lastPlace {q : ℚ} (h : 0 < q) (hplace : lastPlace q ≠ -1074) :
    2 ^ 52 * 2 ^ lastPlace q ≤ q := by
  have hlog := Int.zpow_log_le_self (b := 2) one_lt_two h
  -- Away from the lowest place the maximum is the place that the first bit fixes.
  have heq : Int.log 2 q = ((52 : ℕ) : ℤ) + lastPlace q := by
    unfold lastPlace at hplace ⊢
    rw [abs_of_pos h] at hplace ⊢
    push_cast
    omega
  rw [heq] at hlog
  push_cast at hlog
  rw [show (52 : ℤ) + lastPlace q = ((52 : ℕ) : ℤ) + lastPlace q by rfl, two_zpow_add] at hlog
  exact hlog

/-- The nearest whole number of last places needs a bit more than 53 only if it is `2 ^ 53`. -/
theorem nearest_place_le {q : ℚ} (h : 0 < q) : nearest (q / 2 ^ lastPlace q) ≤ 2 ^ 53 := by
  apply nearest_le
  rw [div_le_iff₀ (two_zpow_pos _)]
  push_cast
  exact (lt_of_lastPlace h).le

/-- The nearest whole number of last places has 53 bits, away from the lowest place. -/
theorem le_nearest_place {q : ℚ} (h : 0 < q) (hplace : lastPlace q ≠ -1074) :
    2 ^ 52 ≤ nearest (q / 2 ^ lastPlace q) := by
  apply le_nearest
  rw [le_div_iff₀ (two_zpow_pos _)]
  push_cast
  exact le_of_lastPlace h hplace

/-- Greater numbers end in greater places. -/
theorem lastPlace_mono {p q : ℚ} (h0 : 0 < p) (h : p ≤ q) : lastPlace p ≤ lastPlace q := by
  unfold lastPlace
  rw [abs_of_pos h0, abs_of_pos (h0.trans_le h)]
  have := Int.log_mono_right (b := 2) h0 h
  omega

/-! ### Rounding -/

@[simp] theorem rounded_zero : rounded 0 = 0 := by
  have := nearest_intCast 0
  rw [Int.cast_zero] at this
  rw [rounded, zero_div, this, Int.cast_zero, zero_mul]

@[simp] theorem rounded_neg (q : ℚ) : rounded (-q) = -rounded q := by
  rw [rounded, lastPlace_neg, neg_div, nearest_neg, rounded]
  push_cast
  ring

/-- A whole number of last places that is no greater stays so. -/
private theorem le_rounded {n : ℤ} {q : ℚ} (h : n * 2 ^ lastPlace q ≤ q) :
    n * 2 ^ lastPlace q ≤ rounded q := by
  apply mul_le_mul_of_nonneg_right _ (two_zpow_pos _).le
  exact_mod_cast le_nearest ((le_div_iff₀ (two_zpow_pos _)).2 h)

/-- A whole number of last places that is no smaller stays so. -/
private theorem rounded_le {n : ℤ} {q : ℚ} (h : q ≤ n * 2 ^ lastPlace q) :
    rounded q ≤ n * 2 ^ lastPlace q := by
  apply mul_le_mul_of_nonneg_right _ (two_zpow_pos _).le
  exact_mod_cast nearest_le ((div_le_iff₀ (two_zpow_pos _)).2 h)

theorem rounded_nonneg {q : ℚ} (h : 0 ≤ q) : 0 ≤ rounded q := by
  have := le_rounded (n := 0) (q := q) (by simpa using h)
  simpa using this

/-- Rounding keeps the order of positive numbers. -/
private theorem rounded_mono_pos {p q : ℚ} (h0 : 0 < p) (h : p ≤ q) : rounded p ≤ rounded q := by
  have hq := h0.trans_le h
  rcases (lastPlace_mono h0 h).eq_or_lt with heq | hlt
  · unfold rounded
    rw [heq]
    apply mul_le_mul_of_nonneg_right _ (two_zpow_pos _).le
    exact_mod_cast nearest_mono (div_le_div_of_nonneg_right h (two_zpow_pos _).le)
  · -- The first number whose last place is that of `q` lies between the two.
    set b : ℚ := 2 ^ 52 * 2 ^ lastPlace q with hb
    -- It is a whole number of last places of `q`, and one of last places of `p`.
    have hplace : lastPlace q ≠ -1074 := by
      have := le_lastPlace p
      omega
    have hbq : b ≤ rounded q := by
      apply mul_le_mul_of_nonneg_right _ (two_zpow_pos _).le
      exact_mod_cast le_nearest_place hq hplace
    obtain ⟨d, hd⟩ : ∃ d : ℕ, lastPlace q = (d : ℤ) + 1 + lastPlace p :=
      ⟨(lastPlace q - lastPlace p - 1).toNat, by omega⟩
    have hbp : b = ((2 ^ (53 + d) : ℤ) : ℚ) * 2 ^ lastPlace p := by
      rw [hb, hd, add_assoc, two_zpow_add, zpow_add₀ two_ne_zero]
      push_cast
      ring
    have hpb : rounded p ≤ b := by
      rw [hbp]
      apply rounded_le
      calc p ≤ 2 ^ 53 * 2 ^ lastPlace p := (lt_of_lastPlace h0).le
        _ ≤ ((2 ^ (53 + d) : ℤ) : ℚ) * 2 ^ lastPlace p := by
          apply mul_le_mul_of_nonneg_right _ (two_zpow_pos _).le
          push_cast
          exact pow_le_pow_right₀ one_le_two (Nat.le_add_right _ _)
    exact hpb.trans hbq

/-- Rounding never changes the order of two numbers. -/
theorem rounded_mono {p q : ℚ} (h : p ≤ q) : rounded p ≤ rounded q := by
  rcases lt_trichotomy p 0 with hp | rfl | hp
  · rcases lt_or_ge q 0 with hq | hq
    · -- Both are negative.
      have := rounded_mono_pos (neg_pos.2 hq) (neg_le_neg h)
      rw [rounded_neg, rounded_neg] at this
      linarith
    · have h1 := rounded_nonneg hq
      have h2 := rounded_nonneg (neg_pos.2 hp).le
      rw [rounded_neg] at h2
      linarith
  · rw [rounded_zero]
    exact rounded_nonneg h
  · exact rounded_mono_pos hp h

/-- A number of at most 53 bits is not changed. -/
theorem rounded_eq_self {m e : ℤ} (hm : |m| < 2 ^ 53) (he : -1074 ≤ e) :
    rounded (m * 2 ^ e) = m * 2 ^ e := by
  rcases eq_or_ne m 0 with rfl | hne
  · simp
  -- The last place is not above the exponent, so that nothing lies below it.
  have hplace : lastPlace (m * 2 ^ e) ≤ e := by
    unfold lastPlace
    have habs : |(m : ℚ) * 2 ^ e| = |(m : ℚ)| * 2 ^ e := by
      rw [abs_mul, abs_of_pos (two_zpow_pos e)]
    have hpos : 0 < |(m : ℚ) * 2 ^ e| := by
      rw [habs]
      exact mul_pos (abs_pos.2 (by exact_mod_cast hne)) (two_zpow_pos e)
    have hlt : |(m : ℚ) * 2 ^ e| < ((2 : ℕ) : ℚ) ^ (((53 : ℕ) : ℤ) + e) := by
      rw [habs, Nat.cast_ofNat, two_zpow_add]
      apply mul_lt_mul_of_pos_right _ (two_zpow_pos e)
      exact_mod_cast hm
    have hlog := (Int.lt_zpow_iff_log_lt one_lt_two hpos).1 hlt
    push_cast at hlog
    omega
  -- So the number is a whole multiple of its last place.
  obtain ⟨d, hd⟩ : ∃ d : ℕ, e = d + lastPlace (m * 2 ^ e) :=
    ⟨(e - lastPlace (m * 2 ^ e)).toNat, by omega⟩
  have hwhole : (m : ℚ) * 2 ^ e = ((m * 2 ^ d : ℤ) : ℚ) * 2 ^ lastPlace (m * 2 ^ e) := by
    conv_lhs => rw [hd]
    rw [two_zpow_add]
    push_cast
    ring
  unfold rounded
  set t := lastPlace (m * 2 ^ e)
  rw [hwhole, mul_div_cancel_right₀ _ (two_zpow_pos t).ne', nearest_intCast]

end Scorecard.Binary64
