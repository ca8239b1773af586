import Scorecard.Decimal.Reading
import Scorecard.Proofs.Binary64.Whole

/-!
# Scaling by powers of ten

A significand of 64 bits and a power of ten are rounded to binary64 numbers, and their product is
rounded again. The product fits for every decimal that is not nearer to the greatest number than to
the one below it, although all three roundings may go up: rounding does not change the order, so
that for each power only the greatest significand has to be looked at.

* `worth_ofNat_of_lt`: natural numbers of 64 bits are rounded.
* `worth_powerOfTen`: so are powers of ten.
* `isFinite_scaled`: which products fit.
* `Decimal.exists_scaled`: which decimals are read.
-/

namespace Scorecard.Binary64

open Float.Model Float.Model.UnpackedFloat Decimal

/-! ### The greatest number -/

/-- The greatest number. -/
def greatest : ℚ := (2 ^ 53 - 1 : ℕ) * 2 ^ (971 : ℤ)

theorem rounded_greatest : rounded greatest = greatest :=
  rounded_eq_self (m := (2 ^ 53 - 1 : ℕ)) (by norm_num) (by norm_num)

theorem greatest_lt_limit : greatest < limit := by
  have hlimit : limit = 2 ^ 53 * 2 ^ (971 : ℤ) := by
    rw [← two_zpow_add]
    rfl
  rw [hlimit]
  exact mul_lt_mul_of_pos_right (by norm_num) (two_zpow_pos _)

/-- What is no greater than the greatest number stays so when it is rounded. -/
theorem abs_rounded_lt_of_le {q : ℚ} (h0 : 0 ≤ q) (h : q ≤ greatest) : |rounded q| < limit := by
  rw [abs_of_nonneg (rounded_nonneg h0)]
  -- Rounding keeps the order and leaves the greatest number as it is.
  have hle := rounded_mono h
  rw [rounded_greatest] at hle
  exact hle.trans_lt greatest_lt_limit

/-- A number of 53 bits with an exponent that fits is no greater. -/
theorem le_greatest {m k : ℕ} (hm : m < 2 ^ 53) (hk : k ≤ 971) : (m : ℚ) * 2 ^ k ≤ greatest := by
  unfold greatest
  rw [← zpow_natCast]
  apply mul_le_mul _ (zpow_le_zpow_right₀ one_le_two (by omega)) (two_zpow_pos _).le (by positivity)
  exact Nat.cast_le.2 (by omega)

/-- Powers are compared as natural numbers. -/
private theorem pow_le_mul_two_pow {a m k c : ℕ} (h : a ^ m ≤ c * 2 ^ k) :
    (a : ℚ) ^ m ≤ c * 2 ^ k := by
  exact_mod_cast h

/-! ### Significands and powers -/

/-- A significand with a power of ten is rounded once. -/
private theorem denotes_ofScientific {m e : ℕ} (hm : 0 < m) (he : e ≤ 2048) :
    Denotes (UnpackedFloat.ofScientific .binary64 m e) (rounded (m * 10 ^ e)) := by
  -- The significand is put up by as many bits as the exponent is put down.
  have hvalue : ((m <<< 53 * 10 ^ e : ℕ) : ℚ) * 2 ^ (-53 : ℤ) = m * 10 ^ e := by
    rw [Nat.shiftLeft_eq]
    push_cast
    norm_num
    ring
  have hpos : 0 < m <<< 53 * 10 ^ e := by
    rw [Nat.shiftLeft_eq]
    positivity
  -- A number that is not below one has no place so low as the mantissa is put.
  have hone : (1 : ℚ) ≤ m * 10 ^ e := by
    exact_mod_cast Nat.mul_pos hm (Nat.pow_pos (n := e) (by norm_num : 0 < 10))
  have hplace : (-53 : ℤ) ≤ lastPlace (m * 10 ^ e) := by
    have hlog : 0 ≤ Int.log 2 |(m : ℚ) * 10 ^ e| := by
      rw [abs_of_nonneg (zero_le_one.trans hone),
        ← Int.zpow_le_iff_le_log one_lt_two (zero_lt_one.trans_le hone), zpow_zero]
      exact hone
    unfold lastPlace
    omega
  have hround := denotes_roundWithAccuracy (e := -53) .positive (holds_exact (m <<< 53 * 10 ^ e))
    (by exact_mod_cast hpos) (by rw [hvalue]; exact hplace)
  rw [hvalue, factor, one_mul] at hround
  -- The powers here are far from those that are answered without rounding.
  have heq : UnpackedFloat.ofScientific .binary64 m e
      = roundWithAccuracy .binary64 .positive (m <<< 53 * 10 ^ e) (-53) .exact := by
    have hbits : (2 : ℤ) ^ Format.binary64.exponentBits = 2048 := by decide
    unfold UnpackedFloat.ofScientific
    rw [dif_neg hm.ne', hbits, if_neg (by omega), if_neg (by omega), if_pos (by omega)]
    rfl
  rw [heq]
  exact hround

/-- A whole number with a power of ten is read as the nearest number, if it is not too great. -/
private theorem worth_ofScientific {m e : ℕ} (hm : 0 < m) (he : e ≤ 2048)
    (h : (m : ℚ) * 10 ^ e ≤ greatest) :
    Worth ⟨Float.Model.ofScientific m e⟩ (rounded (m * 10 ^ e)) := by
  have hdenotes := denotes_ofScientific hm he
  have hpack := hdenotes.unpack_pack (abs_rounded_lt_of_le (by positivity) h)
  change Denotes (Float.Model.pack (UnpackedFloat.ofScientific .binary64 m e)).unpack _
  rwa [hpack]

/-- A natural number of 64 bits is rounded. -/
theorem worth_ofNat_of_lt {n : ℕ} (h : n < 2 ^ 64) : Worth (Float.ofNat n) (rounded n) := by
  rcases Nat.lt_or_ge n (2 ^ 53) with hsmall | hlarge
  · rw [rounded_natCast hsmall]
    exact worth_ofNat hsmall
  · -- A number beyond 53 bits takes the long way, by its significand.
    have hscientific : Float.ofNat n = ⟨Float.Model.ofScientific n (0 : ℕ)⟩ := by
      change Float.ofScientific n false 0 = _
      unfold Float.ofScientific
      rw [dif_neg (fun hfast => absurd hfast.1 (Nat.not_lt.2 hlarge))]
      rfl
    have hworth := worth_ofScientific (m := n) (e := 0) (by omega) (by norm_num) (by
      have hle : (n : ℚ) ≤ (2 : ℕ) * 2 ^ 63 := by exact_mod_cast h.le
      rw [pow_zero, mul_one]
      exact hle.trans (le_greatest (by norm_num) (by norm_num)))
    rw [pow_zero, mul_one] at hworth
    rwa [hscientific]

/-- The first powers of ten stand in a table, and are the same numbers as the others. -/
private theorem powerOfTen_eq (n : ℕ) : powerOfTen n = ⟨Float.Model.ofScientific 1 n⟩ := by
  have htable : ∀ n : Fin 23, powerOfTen n = ⟨Float.Model.ofScientific 1 (n : ℕ)⟩ := by
    decide +kernel
  rcases Nat.lt_or_ge n 23 with hsmall | hlarge
  · exact htable ⟨n, hsmall⟩
  · unfold powerOfTen Float.ofScientific
    rw [dif_neg (by omega)]
    rfl

/-- A power of ten is rounded, as long as it fits. -/
theorem worth_powerOfTen {n : ℕ} (h : n ≤ 308) : Worth (powerOfTen n) (rounded (10 ^ n)) := by
  have hle : (10 : ℚ) ^ n ≤ greatest := by
    have hpow : (10 : ℚ) ^ n ≤ 10 ^ 308 := pow_le_pow_right₀ (by norm_num) h
    -- The bound is checked once, for the greatest power.
    have hfits := pow_le_mul_two_pow (a := 10) (m := 308) (c := 2 ^ 53 - 1) (k := 971)
      (by decide +kernel)
    rw [Nat.cast_ofNat] at hfits
    exact hpow.trans (hfits.trans (le_greatest (by norm_num) le_rfl))
  have hworth := worth_ofScientific (m := 1) (e := n) one_pos (by omega) (by
    rwa [Nat.cast_one, one_mul])
  rw [Nat.cast_one, one_mul] at hworth
  rwa [powerOfTen_eq]

/-! ### Products -/

/-- A product is finite if and only if the exact product, rounded, fits. -/
theorem Worth.isFinite_mul {x y : Float} {p q : ℚ} (hx : Worth x p) (hy : Worth y q) :
    (x * y).isFinite = true ↔ |rounded (p * q)| < limit :=
  (Denotes.mul hx hy).isFinite_pack

/-- Where the product of a greater significand fits, so does that of a smaller one. -/
private theorem isFinite_mul_of_le {m n e : ℕ} (hn : n < 2 ^ 64) (he : e ≤ 308) (h : m ≤ n)
    (hfits : (Float.ofNat n * powerOfTen e).isFinite = true) :
    (Float.ofNat m * powerOfTen e).isFinite = true := by
  have hpower := worth_powerOfTen he
  rw [(worth_ofNat_of_lt (h.trans_lt hn)).isFinite_mul hpower]
  rw [(worth_ofNat_of_lt hn).isFinite_mul hpower] at hfits
  have hnonneg : (0 : ℚ) ≤ rounded (10 ^ e) := rounded_nonneg (by positivity)
  have hm : (0 : ℚ) ≤ rounded m := rounded_nonneg (Nat.cast_nonneg m)
  -- Rounding the significands and the products keeps their order.
  have hmn : (rounded m : ℚ) ≤ rounded n := rounded_mono (by exact_mod_cast h)
  have hmul := mul_le_mul_of_nonneg_right hmn hnonneg
  have hm0 := mul_nonneg hm hnonneg
  rw [abs_of_nonneg (rounded_nonneg (hm0.trans hmul))] at hfits
  rw [abs_of_nonneg (rounded_nonneg hm0)]
  exact (rounded_mono hmul).trans_lt hfits

/-- A number that is no greater than a power of two stays so when it is rounded. -/
private theorem rounded_le_two_pow {q : ℚ} {k : ℕ} (h : q ≤ 2 ^ k) : rounded q ≤ 2 ^ k := by
  have hself := rounded_eq_self (m := 1) (e := k) (by norm_num) (by omega)
  rw [Int.cast_one, one_mul, zpow_natCast] at hself
  have hle := rounded_mono h
  rwa [hself] at hle

/-- All significands of 64 bits fit with a power of ten that is far below the greatest number. -/
private theorem isFinite_mul_of_lt {n e : ℕ} (hn : n < 2 ^ 64) (he : e < 289) :
    (Float.ofNat n * powerOfTen e).isFinite = true := by
  rw [(worth_ofNat_of_lt hn).isFinite_mul (worth_powerOfTen (by omega))]
  have hcount0 : (0 : ℚ) ≤ rounded n := rounded_nonneg (Nat.cast_nonneg _)
  have hpower0 : (0 : ℚ) ≤ rounded (10 ^ e) := rounded_nonneg (by positivity)
  have hcount : rounded n ≤ 2 ^ 64 := rounded_le_two_pow (by exact_mod_cast hn.le)
  have hpower : rounded (10 ^ e) ≤ 2 ^ 957 := by
    have hpow : (10 : ℚ) ^ e ≤ 10 ^ 288 := pow_le_pow_right₀ (by norm_num) (by omega)
    have hfits := pow_le_mul_two_pow (a := 10) (m := 288) (c := 1) (k := 957) (by decide +kernel)
    rw [Nat.cast_ofNat, Nat.cast_one, one_mul] at hfits
    exact rounded_le_two_pow (hpow.trans hfits)
  apply abs_rounded_lt_of_le (mul_nonneg hcount0 hpower0)
  calc rounded n * rounded (10 ^ e) ≤ 2 ^ 64 * 2 ^ 957 :=
        mul_le_mul hcount hpower hpower0 (by positivity)
    _ = (2 ^ 50 : ℕ) * 2 ^ 971 := by
      rw [Nat.cast_pow, Nat.cast_ofNat, ← pow_add, ← pow_add]
    _ ≤ greatest := le_greatest (by norm_num) le_rfl

/-- Half way between the greatest number and the one below it. -/
def ceiling : ℕ := (2 ^ 54 - 3) * 2 ^ 970

theorem cast_ceiling : (ceiling : ℚ) = (2 ^ 54 - 3 : ℕ) * 2 ^ (970 : ℤ) := by
  have hcast (m k : ℕ) : ((m * 2 ^ k : ℕ) : ℚ) = m * 2 ^ (k : ℤ) := by
    rw [zpow_natCast]
    push_cast
    rfl
  exact hcast (2 ^ 54 - 3) 970

/-- A power of ten with more than 308 zeros is above the ceiling. -/
private theorem ceiling_lt {k : ℕ} (hk : 308 < k) : ceiling < 10 ^ k := by
  have hlt : ceiling < 10 * 10 ^ 308 := by decide +kernel
  obtain ⟨d, rfl⟩ : ∃ d, k = d + 1 := ⟨k - 1, by omega⟩
  rw [Nat.pow_succ']
  exact hlt.trans_le
    (Nat.mul_le_mul_left 10 (Nat.pow_le_pow_right (by norm_num) (Nat.le_of_lt_succ hk)))

/-- The greatest significands that stay below the ceiling fit. -/
private theorem isFinite_greatest_mul : ∀ d : Fin 20, ceiling / 10 ^ (289 + d.val) < 2 ^ 64 ∧
    (Float.ofNat (ceiling / 10 ^ (289 + d.val)) * powerOfTen (289 + d.val)).isFinite = true := by
  decide +kernel

/-- The product of a significand of 64 bits and a power of ten fits if the exact product is not
nearer to the greatest number than to the one below it. -/
theorem isFinite_scaled {n e : ℕ} (hn : n < 2 ^ 64) (he : e ≤ 308) (h : n * 10 ^ e ≤ ceiling) :
    (Float.ofNat n * powerOfTen e).isFinite = true := by
  -- There are few great powers, and for each the greatest significand decides.
  rcases Nat.lt_or_ge e 289 with hsmall | hlarge
  · exact isFinite_mul_of_lt hn hsmall
  · obtain ⟨hlt, hfits⟩ := isFinite_greatest_mul ⟨e - 289, by omega⟩
    simp only [Nat.add_sub_cancel' hlarge] at hlt hfits
    exact isFinite_mul_of_le hlt he ((Nat.le_div_iff_mul_le (by positivity)).2 h) hfits

end Scorecard.Binary64

namespace Scorecard.Decimal

open Binary64

/-- What is finite is not infinite. -/
private theorem isInf_of_isFinite {x : Float} (h : x.isFinite = true) : x.isInf = false := by
  change x.toModel.unpack.isFinite = true at h
  change x.toModel.unpack.isInf = false
  generalize x.toModel.unpack = u at h
  cases u <;> first | rfl | exact Bool.noConfusion h

/-- A decimal of 64 bits is read unless it is nearer to the greatest number than to the one below
it, or above it. -/
theorem exists_scaled {n : ℕ} {e : ℤ} (hpos : 0 < n) (hn : n < 2 ^ 64)
    (h : (n : ℚ) * 10 ^ e ≤ ceiling) : ∃ x, scaled n e = some x := by
  cases e with
  | negSucc k => exact ⟨_, rfl⟩
  | ofNat k =>
    have hle : n * 10 ^ k ≤ ceiling := by
      rw [Int.ofNat_eq_natCast, zpow_natCast] at h
      exact_mod_cast h
    -- A power beyond the greatest one would be above the ceiling by itself.
    have hk : k ≤ 308 := by
      by_contra hk
      have hpow : ceiling < 10 ^ k := ceiling_lt (Nat.not_le.1 hk)
      exact absurd (hpow.trans_le (Nat.le_mul_of_pos_left _ hpos)) (Nat.not_lt.2 hle)
    unfold scaled
    simp only
    rw [if_pos hk, if_neg (by rw [isInf_of_isFinite (isFinite_scaled hn hk hle)]; exact nofun)]
    exact ⟨_, rfl⟩

end Scorecard.Decimal
