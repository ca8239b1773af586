import Scorecard.Proofs.Binary64.Rounding

/-!
# Rounding mantissas

The operations on binary64 numbers work on a sign, a mantissa and an exponent. Their last step
shifts the mantissa to the last place, rounds it there, and shifts once more if the rounding has
carried into a new bit. What comes out is in canonical form and stands for the number rounded.

* `Denotes`: a number taken apart stands for a rational number.
* `denotes_roundWithAccuracy`: the last step of a division.
* `denotes_normalize`: the last step of an addition.
-/

namespace Scorecard.Binary64

open Float.Model Float.Model.UnpackedFloat

/-- Mantissa and exponent are those that binary64 keeps: 53 bits with the first one set, or fewer
of them at the lowest last place. -/
structure IsCanonical (m : ℕ) (e : ℤ) : Prop where
  lt : m < 2 ^ 53
  le : -1074 ≤ e
  full : 2 ^ 52 ≤ m ∨ e = -1074

/-- The sign as a factor. -/
def factor : Sign → ℚ
  | .negative => -1
  | .positive => 1

/-- A number taken apart, in canonical form, stands for a rational number. -/
inductive Denotes : UnpackedFloat → ℚ → Prop
  | zero (s : Sign) : Denotes (.zero s) 0
  | finite (s : Sign) {m : ℕ} {e : ℤ} (hm : 0 < m) (h : IsCanonical m e) :
    Denotes (.finite s m e hm) (factor s * (m * 2 ^ e))

/-! ### The target of the shift -/

/-- The exponent to round to leaves 53 bits, or as many as a subnormal number has. -/
private theorem targetExponent_eq (m : ℕ) (e : ℤ) :
    Format.binary64.targetExponent (totalExponent m e) = max (m.log2 + e - 52) (-1074) := by
  simp only [Format.targetExponent, totalExponent, Format.mantissaBits, Format.minExponent]
  omega

/-- The shift to the target by `n` places. -/
private theorem shift_eq {m : ℕ} {e : ℤ} {acc : Accuracy} {n : ℕ}
    (h : (Format.binary64.targetExponent (totalExponent m e) - e).toNat = n) :
    shiftToTargetExponent .binary64 m e acc
      = (ExtendedMantissa.ofMantissaAndAccuracy m acc >>> n, e + n) := by
  rw [← h]
  rfl

/-- A mantissa of 53 bits at most stays where it is. -/
private theorem shift_of_lt {m : ℕ} {e : ℤ} (hm : m < 2 ^ 53) (he : -1074 ≤ e) :
    shiftToTargetExponent .binary64 m e .exact = (⟨m, false, false⟩, e) := by
  have hlog : m.log2 ≤ 52 := by
    rcases Nat.eq_zero_or_pos m with rfl | hpos
    · decide
    · have := (Nat.log2_lt hpos.ne').2 hm
      omega
  have hshift : (Format.binary64.targetExponent (totalExponent m e) - e).toNat = 0 := by
    rw [targetExponent_eq]
    omega
  rw [shift_eq hshift, Nat.cast_zero, add_zero]
  rfl

/-- After a carry the mantissa is shifted by one place. -/
private theorem shift_carry {e : ℤ} (he : -1074 ≤ e) :
    shiftToTargetExponent .binary64 (2 ^ 53) e .exact = (⟨2 ^ 52, false, false⟩, e + 1) := by
  have hshift :
      (Format.binary64.targetExponent (totalExponent (2 ^ 53) e) - e).toNat = 1 := by
    rw [targetExponent_eq, Nat.log2_two_pow]
    omega
  rw [shift_eq hshift]
  rfl

/-! ### Rounding -/

/-- The exponent of the first bit of a number between two powers of two, times another. -/
private theorem log_eq_of_bounds {q : ℚ} {n : ℕ} {e : ℤ} (hq : 0 < q)
    (hle : 2 ^ n * 2 ^ e ≤ q) (hlt : q < 2 ^ (n + 1) * 2 ^ e) : Int.log 2 q = n + e := by
  rw [← two_zpow_add] at hle hlt
  have h1 := (Int.zpow_le_iff_le_log (b := 2) one_lt_two hq).1 (by exact_mod_cast hle)
  have h2 := (Int.lt_zpow_iff_log_lt (b := 2) one_lt_two hq).1 (by exact_mod_cast hlt)
  push_cast at h2
  omega

/-- What is noted beside a mantissa does not change it. -/
private theorem mantissa_ofMantissaAndAccuracy (m : ℕ) (acc : Accuracy) :
    (ExtendedMantissa.ofMantissaAndAccuracy m acc).mantissa = m := by
  rcases acc with _ | o
  · rfl
  · cases o <;> rfl

theorem log_mul_two_zpow {m : ℕ} (hm : 0 < m) (e : ℤ) :
    Int.log 2 ((m : ℚ) * 2 ^ e) = m.log2 + e := by
  apply log_eq_of_bounds (mul_pos (by exact_mod_cast hm) (two_zpow_pos e))
  · apply mul_le_mul_of_nonneg_right _ (two_zpow_pos e).le
    exact_mod_cast Nat.log2_self_le hm.ne'
  · apply mul_lt_mul_of_pos_right _ (two_zpow_pos e)
    exact_mod_cast Nat.lt_log2_self

/-- The mantissa is shifted to the last place of the number that it stands for. -/
private theorem targetExponent_eq_lastPlace {m : ℕ} {e : ℤ} {acc : Accuracy} {x : ℚ}
    (h : Holds (.ofMantissaAndAccuracy m acc) x) (hx : 0 < x) (he : e ≤ lastPlace (x * 2 ^ e)) :
    Format.binary64.targetExponent (totalExponent m e) = lastPlace (x * 2 ^ e) := by
  have hpos : 0 < x * 2 ^ e := mul_pos hx (two_zpow_pos e)
  -- The number lies between its whole part and the next one.
  have hle : (m : ℚ) ≤ x := by
    simpa [mantissa_ofMantissaAndAccuracy] using h.mantissa_le
  have hlt : x < m + 1 := by
    simpa [mantissa_ofMantissaAndAccuracy] using h.lt_mantissa_succ
  rw [targetExponent_eq]
  unfold lastPlace at he ⊢
  rw [abs_of_pos hpos] at he ⊢
  rcases Nat.eq_zero_or_pos m with rfl | hm
  · -- The number lies below its first place, which is possible at the lowest last place only.
    have hone : x < 1 := by simpa using hlt
    have hlog : Int.log 2 (x * 2 ^ e) < e := by
      rw [← Int.lt_zpow_iff_log_lt one_lt_two hpos, Nat.cast_ofNat]
      exact mul_lt_of_lt_one_left (two_zpow_pos e) hone
    have : Nat.log2 0 = 0 := by decide
    omega
  · have hlog : Int.log 2 (x * 2 ^ e) = m.log2 + e := by
      apply log_eq_of_bounds hpos
      · apply mul_le_mul_of_nonneg_right _ (two_zpow_pos e).le
        exact le_trans (by exact_mod_cast Nat.log2_self_le hm.ne') hle
      · apply mul_lt_mul_of_pos_right _ (two_zpow_pos e)
        exact hlt.trans_le (by exact_mod_cast Nat.lt_log2_self)
    omega

/-- The second shift: nothing happens unless rounding has carried into a new bit. -/
private theorem denotes_settled (s : Sign) {k : ℕ} {t : ℤ} (hk : k ≤ 2 ^ 53) (ht : -1074 ≤ t)
    (hfull : 2 ^ 52 ≤ k ∨ t = -1074) :
    Denotes
      (let (em, e) := shiftToTargetExponent .binary64 k t .exact
       if h : em.mantissa = 0 then .zero s else .finite s em.mantissa e (Nat.pos_of_ne_zero h))
      (factor s * (k * 2 ^ t)) := by
  rcases hk.lt_or_eq with hlt | rfl
  · rw [shift_of_lt hlt ht]
    simp only
    split
    · next hzero =>
      rw [hzero, Nat.cast_zero, zero_mul, mul_zero]
      exact .zero s
    · next hne => exact .finite s (Nat.pos_of_ne_zero hne) ⟨hlt, ht, hfull⟩
  · rw [shift_carry ht]
    simp only
    rw [dif_neg (by norm_num)]
    -- The carry leaves the first bit of the mantissa only, one place further up.
    have hvalue : ((2 ^ 53 : ℕ) : ℚ) * 2 ^ t = ((2 ^ 52 : ℕ) : ℚ) * 2 ^ (t + 1) := by
      rw [zpow_add₀ two_ne_zero]
      push_cast
      ring
    rw [hvalue]
    exact .finite s _ ⟨by norm_num, by omega, .inl le_rfl⟩

/-- Rounding a mantissa, with what is known of the rest, rounds the number. -/
theorem denotes_roundWithAccuracy {m : ℕ} {e : ℤ} {acc : Accuracy} {x : ℚ} (s : Sign)
    (h : Holds (.ofMantissaAndAccuracy m acc) x) (hx : 0 < x) (he : e ≤ lastPlace (x * 2 ^ e)) :
    Denotes (roundWithAccuracy .binary64 s m e acc) (factor s * rounded (x * 2 ^ e)) := by
  have hpos : 0 < x * 2 ^ e := mul_pos hx (two_zpow_pos e)
  have hlow := le_lastPlace (x * 2 ^ e)
  have htarget := targetExponent_eq_lastPlace h hx he
  obtain ⟨n, hn⟩ : ∃ n : ℕ, lastPlace (x * 2 ^ e) = n + e :=
    ⟨(lastPlace (x * 2 ^ e) - e).toNat, by omega⟩
  -- The first shift ends at the last place, and the mantissa is rounded there.
  set em := ExtendedMantissa.ofMantissaAndAccuracy m acc >>> n with hem
  set t := lastPlace (x * 2 ^ e) with ht
  have hfirst : shiftToTargetExponent .binary64 m e acc = (em, t) := by
    rw [shift_eq (n := n) (by rw [htarget]; omega), hn, add_comm]
  have hscaled : x / 2 ^ n = x * 2 ^ e / 2 ^ t := by
    rw [hn, two_zpow_add]
    field_simp
  have hnearest : (em.roundedMantissa : ℤ) = nearest (x * 2 ^ e / 2 ^ t) := by
    rw [← hscaled]
    exact (h.shiftRight n).roundedMantissa
  have hrounded : rounded (x * 2 ^ e) = em.roundedMantissa * 2 ^ t := by
    rw [rounded, ← ht, ← hnearest]
    push_cast
    rfl
  rw [hrounded]
  unfold roundWithAccuracy
  rw [hfirst]
  apply denotes_settled s _ hlow
  · rcases eq_or_ne t (-1074) with hend | hend
    · exact .inr hend
    · left
      have := le_nearest_place hpos hend
      rw [← ht, ← hnearest] at this
      exact_mod_cast this
  · have := nearest_place_le hpos
    rw [← ht, ← hnearest] at this
    exact_mod_cast this

/-! ### Exact mantissas -/

/-- An exact mantissa is moved down to the last place, where it has enough bits. -/
theorem denotes_round {m : ℕ} (hm : 0 < m) (e : ℤ) (s : Sign) :
    Denotes (UnpackedFloat.round .binary64 s m e) (factor s * rounded (m * 2 ^ e)) := by
  have hx : (0 : ℚ) < m := by exact_mod_cast hm
  have htarget : Format.binary64.targetExponent (totalExponent m e) = lastPlace (m * 2 ^ e) := by
    rw [targetExponent_eq]
    unfold lastPlace
    rw [abs_of_pos (mul_pos hx (two_zpow_pos e)), log_mul_two_zpow hm]
  -- The exponent is lowered to the last place by zeros at the end of the mantissa.
  set d := (e - lastPlace (m * 2 ^ e)).toNat with hd
  have hround : UnpackedFloat.round .binary64 s m e
      = roundWithAccuracy .binary64 s (m <<< d) (e - d) .exact := by
    unfold UnpackedFloat.round decreaseExponent
    simp only [htarget, hd]
  have hvalue : (m : ℚ) * 2 ^ e = (m <<< d : ℕ) * 2 ^ (e - (d : ℤ)) := by
    rw [Nat.shiftLeft_eq, show e = (d : ℤ) + (e - d) by omega, two_zpow_add]
    push_cast
    rw [mul_assoc]
    ring_nf
  rw [hround, hvalue]
  have hpos : 0 < m <<< d := by
    rw [Nat.shiftLeft_eq]
    positivity
  apply denotes_roundWithAccuracy s (holds_exact _) (by exact_mod_cast hpos)
  rw [← hvalue]
  omega

/-- A whole mantissa with a sign, moved to any exponent, stands for the number rounded. -/
theorem denotes_normalize (m e : ℤ) :
    Denotes (UnpackedFloat.normalize .binary64 m e .positive) (rounded (m * 2 ^ e)) := by
  unfold UnpackedFloat.normalize
  -- The sign is split off before rounding, and rounding does not see it.
  rcases lt_trichotomy m 0 with hm | rfl | hm
  · rw [Int.compare_eq_lt.2 hm]
    have h := denotes_round (m := (-m).toNat) (by omega) e .negative
    have hcast : (((-m).toNat : ℕ) : ℚ) = -m := by
      rw [← Int.cast_natCast, Int.toNat_of_nonneg (by omega)]
      push_cast
      rfl
    rwa [hcast, neg_mul, rounded_neg, factor, neg_one_mul, neg_neg] at h
  · rw [Int.compare_eq_eq.2 rfl, Int.cast_zero, zero_mul, rounded_zero]
    exact .zero _
  · rw [Int.compare_eq_gt.2 hm]
    have h := denotes_round (m := m.toNat) (by omega) e .positive
    have hcast : ((m.toNat : ℕ) : ℚ) = m := by
      rw [← Int.cast_natCast, Int.toNat_of_nonneg (by omega)]
    rwa [hcast, factor, one_mul] at h

end Scorecard.Binary64
