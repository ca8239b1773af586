import Scorecard.Proofs.Binary64.Worth

/-!
# The order of numbers

Two numbers in canonical form are compared by their exponents first and then by their mantissas,
which is the order of what they are worth: a number with a greater exponent has a full mantissa, and
is the greater one whatever the other mantissa is.

* `Denotes.compare`: numbers taken apart compare as the rational numbers they stand for.
* `Worth.le_iff`, `Worth.lt_iff`, `Worth.beq_iff`: finite numbers compare as what they are worth.
-/

namespace Scorecard.Binary64

open Float.Model Float.Model.UnpackedFloat

variable {m m' : ℕ} {e e' : ℤ}

/-! ### Numbers above zero -/

/-- A number with a greater exponent is the greater one. -/
private theorem IsCanonical.lt_of_exponent_lt (h : IsCanonical m e) (h' : IsCanonical m' e')
    (hlt : e < e') : (m : ℚ) * 2 ^ e < m' * 2 ^ e' := by
  -- The greater exponent is not the least one, so that all bits are in use.
  have hfull : 2 ^ 52 ≤ m' := by
    rcases h'.full with hfull | hlow
    · exact hfull
    · have := h.le
      omega
  calc (m : ℚ) * 2 ^ e < 2 ^ 53 * 2 ^ e := by
        apply mul_lt_mul_of_pos_right _ (two_zpow_pos e)
        exact_mod_cast h.lt
    _ = 2 ^ 52 * 2 ^ (e + 1) := by
        rw [zpow_add₀ two_ne_zero]
        ring
    _ ≤ 2 ^ 52 * 2 ^ e' := by
        apply mul_le_mul_of_nonneg_left _ (by positivity)
        exact zpow_le_zpow_right₀ one_le_two hlt
    _ ≤ m' * 2 ^ e' := by
        apply mul_le_mul_of_nonneg_right _ (two_zpow_pos e').le
        exact_mod_cast hfull

/-- Canonical numbers compare by their exponents first, and then by their mantissas. -/
private theorem IsCanonical.compare (h : IsCanonical m e) (h' : IsCanonical m' e') :
    (Ord.compare e e').then (Ord.compare m m') = cmp ((m : ℚ) * 2 ^ e) (m' * 2 ^ e') := by
  -- With one exponent the mantissas decide; otherwise they do not matter.
  rcases lt_trichotomy e e' with hlt | rfl | hgt
  · rw [Int.compare_eq_lt.2 hlt, (cmp_eq_lt_iff _ _).2 (h.lt_of_exponent_lt h' hlt)]
    rfl
  · rw [Int.compare_eq_eq.2 rfl, cmp_mul_pos_right (two_zpow_pos e)]
    rcases lt_trichotomy m m' with hlt | rfl | hgt
    · rw [Nat.compare_eq_lt.2 hlt, (cmp_eq_lt_iff _ _).2 (by exact_mod_cast hlt)]
      rfl
    · rw [Nat.compare_eq_eq.2 rfl, cmp_self_eq_eq]
      rfl
    · rw [Nat.compare_eq_gt.2 hgt, (cmp_eq_gt_iff _ _).2 (by exact_mod_cast hgt)]
      rfl
  · rw [Int.compare_eq_gt.2 hgt, (cmp_eq_gt_iff _ _).2 (h'.lt_of_exponent_lt h hgt)]
    rfl

/-! ### All numbers -/

/-- What has a positive mantissa is positive. -/
private theorem finite_pos (hm : 0 < m) (e : ℤ) : (0 : ℚ) < m * 2 ^ e :=
  mul_pos (by exact_mod_cast hm) (two_zpow_pos e)

/-- Numbers taken apart compare as the rational numbers they stand for. -/
theorem Denotes.compare {a b : UnpackedFloat} {p q : ℚ} (ha : Denotes a p) (hb : Denotes b q) :
    UnpackedFloat.compare a b = some (cmp p q) := by
  cases ha with
  | zero s =>
    cases hb with
    | zero s' => rw [cmp_self_eq_eq]; rfl
    | finite s' hm' h' =>
      have hpos := finite_pos hm' ‹ℤ›
      cases s' with
      | negative =>
        rw [factor, neg_one_mul, (cmp_eq_gt_iff _ _).2 (neg_neg_iff_pos.2 hpos)]
        rfl
      | positive =>
        rw [factor, one_mul, (cmp_eq_lt_iff _ _).2 hpos]
        rfl
  | finite s hm h =>
    rename_i m e
    have hpos := finite_pos hm e
    cases hb with
    | zero s' =>
      cases s with
      | negative =>
        rw [factor, neg_one_mul, (cmp_eq_lt_iff _ _).2 (neg_neg_iff_pos.2 hpos)]
        rfl
      | positive =>
        rw [factor, one_mul, (cmp_eq_gt_iff _ _).2 hpos]
        rfl
    | finite s' hm' h' =>
      rename_i m' e'
      -- Where the signs differ they decide, and the numbers play no part.
      have hpos' := finite_pos hm' e'
      cases s with
      | negative =>
        cases s' with
        | negative =>
          -- Below zero the order is the other way round.
          have hanti : StrictAnti fun x : ℚ => -x := fun _ _ h => neg_lt_neg h
          have hflip : cmp (-((m : ℚ) * 2 ^ e)) (-(m' * 2 ^ e'))
              = (cmp ((m : ℚ) * 2 ^ e) (m' * 2 ^ e')).swap := by
            rw [cmp_swap]
            exact hanti.cmp_map_eq _ _
          rw [factor, neg_one_mul, neg_one_mul, hflip, ← h.compare h']
          rfl
        | positive =>
          rw [factor, factor, neg_one_mul, one_mul, (cmp_eq_lt_iff _ _).2 (by linarith)]
          rfl
      | positive =>
        cases s' with
        | negative =>
          rw [factor, factor, neg_one_mul, one_mul, (cmp_eq_gt_iff _ _).2 (by linarith)]
          rfl
        | positive =>
          rw [factor, one_mul, one_mul, ← h.compare h']
          rfl

variable {x y : Float} {p q : ℚ}

theorem le_iff_isLE_compare :
    x ≤ y ↔ (UnpackedFloat.compare x.toModel.unpack y.toModel.unpack).any (·.isLE) = true := by
  change decide (x.toModel ≤ y.toModel) = true ↔ _
  rw [decide_eq_true_iff]
  rfl

/-- What is compared as in a linear order is ordered so. -/
theorem isLE_cmp {α : Type} [LinearOrder α] (a b : α) : (cmp a b).isLE = true ↔ a ≤ b := by
  rcases lt_trichotomy a b with hlt | rfl | hgt
  · simp [(cmp_eq_lt_iff _ _).2 hlt, hlt.le]
  · simp
  · simp [(cmp_eq_gt_iff _ _).2 hgt, hgt]

theorem Worth.le_iff (hx : Worth x p) (hy : Worth y q) : x ≤ y ↔ p ≤ q := by
  rw [le_iff_isLE_compare, Denotes.compare hx hy, Option.any_some, isLE_cmp]

theorem Worth.lt_iff (hx : Worth x p) (hy : Worth y q) : x < y ↔ p < q := by
  rw [lt_iff_lt_unpack]
  unfold UnpackedFloat.lt
  rw [Denotes.compare hx hy, beq_iff_eq, Option.some_inj, cmp_eq_lt_iff]

theorem Worth.beq_iff (hx : Worth x p) (hy : Worth y q) : (x == y) = true ↔ p = q := by
  have hbeq : (x == y) = UnpackedFloat.beq x.toModel.unpack y.toModel.unpack := rfl
  rw [hbeq]
  unfold UnpackedFloat.beq
  rw [Denotes.compare hx hy, beq_iff_eq, Option.some_inj, cmp_eq_eq_iff]

end Scorecard.Binary64
