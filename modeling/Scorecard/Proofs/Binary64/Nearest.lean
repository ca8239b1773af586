import Mathlib

/-!
# The nearest whole number

A binary64 operation computes an exact number first and then rounds it to the nearest multiple of
its last place, a tie going to the even neighbour. The rounding is carried out on a mantissa with
two bits that stand for all that has been shifted out of it.

* `nearest`, `nearest_mono`: the nearest whole number, and that it never decreases.
* `Holds`, `Holds.shiftRight`: a mantissa with its two bits stands for a rational number, and
  shifting it by `n` places divides that number by `2 ^ n`.
* `Holds.roundedMantissa`: rounding the mantissa is taking the nearest whole number.
-/

namespace Scorecard.Binary64

open Float.Model.UnpackedFloat

/-- The nearest whole number; of two that are equally near the even one. -/
def nearest (x : ℚ) : ℤ :=
  if Int.fract x < 1 / 2 then ⌊x⌋
  else if 1 / 2 < Int.fract x then ⌊x⌋ + 1
  else if ⌊x⌋ % 2 = 0 then ⌊x⌋ else ⌊x⌋ + 1

/-! ### The nearest whole number -/

/-- The nearest whole number is one of the two neighbours. -/
theorem nearest_eq_or (x : ℚ) : nearest x = ⌊x⌋ ∨ nearest x = ⌊x⌋ + 1 := by
  unfold nearest
  split_ifs <;> simp

theorem floor_le_nearest (x : ℚ) : ⌊x⌋ ≤ nearest x := by
  rcases nearest_eq_or x with h | h <;> omega

theorem nearest_le_floor_succ (x : ℚ) : nearest x ≤ ⌊x⌋ + 1 := by
  rcases nearest_eq_or x with h | h <;> omega

/-- A whole number is the one nearest to itself. -/
@[simp] theorem nearest_intCast (n : ℤ) : nearest n = n := by
  simp [nearest]

/-- Below zero the same numbers are nearest, with the other sign. -/
@[simp] theorem nearest_neg (x : ℚ) : nearest (-x) = -nearest x := by
  rcases eq_or_ne (Int.fract x) 0 with h | h
  · -- `x` is a whole number
    obtain ⟨n, rfl⟩ : ∃ n : ℤ, x = n := ⟨⌊x⌋, by linarith [Int.floor_add_fract x]⟩
    rw [← Int.cast_neg, nearest_intCast, nearest_intCast]
  · have hfract : Int.fract (-x) = 1 - Int.fract x := Int.fract_neg h
    have hfloor : ⌊-x⌋ = -⌊x⌋ - 1 := by
      have h1 := Int.floor_add_fract (-x)
      have h2 := Int.floor_add_fract x
      have h3 : (⌊-x⌋ : ℚ) = ((-⌊x⌋ - 1 : ℤ) : ℚ) := by
        push_cast
        linarith
      exact_mod_cast h3
    -- The two fractions change places, and so do the neighbours; a tie has the same even one.
    unfold nearest
    rw [hfract, hfloor]
    split_ifs <;> first | omega | (exfalso; linarith)

/-- Between two whole numbers `n` and `n + 1` the fraction decides. -/
theorem nearest_add {n : ℕ} {f : ℚ} (h0 : 0 ≤ f) (h1 : f < 1) :
    nearest (n + f) = if f < 1 / 2 then (n : ℤ) else if 1 / 2 < f then (n : ℤ) + 1
      else if n % 2 = 0 then (n : ℤ) else (n : ℤ) + 1 := by
  have hfloor : ⌊(n : ℚ) + f⌋ = n := by
    rw [Int.floor_eq_iff]
    constructor <;> push_cast <;> linarith
  have hfract : Int.fract ((n : ℚ) + f) = f := by
    rw [Int.fract, hfloor]
    push_cast
    ring
  have hparity : ((n : ℤ) % 2 = 0) ↔ n % 2 = 0 := by omega
  simp only [nearest, hfloor, hfract, hparity]

/-- The nearest whole number never decreases. -/
theorem nearest_mono {x y : ℚ} (h : x ≤ y) : nearest x ≤ nearest y := by
  rcases (Int.floor_mono h).lt_or_eq with hlt | heq
  · -- A whole number lies between the two.
    have hx := nearest_le_floor_succ x
    have hy := floor_le_nearest y
    omega
  · -- Both lie between the same neighbours, so that the fractions compare as the numbers do.
    have hfract : Int.fract x ≤ Int.fract y := by
      rw [Int.fract, Int.fract, heq]
      linarith
    unfold nearest
    rw [heq]
    split_ifs <;> first | omega | (exfalso; linarith)

/-- A whole number that is no greater stays so. -/
theorem le_nearest {n : ℤ} {x : ℚ} (h : (n : ℚ) ≤ x) : n ≤ nearest x := by
  have := nearest_mono h
  rwa [nearest_intCast] at this

/-- A whole number that is no smaller stays so. -/
theorem nearest_le {n : ℤ} {x : ℚ} (h : x ≤ n) : nearest x ≤ n := by
  have := nearest_mono h
  rwa [nearest_intCast] at this

/-! ### Mantissas with a round bit and a sticky bit -/

/-- The mantissa is what `x` has in whole places. The round bit tells whether at least half a
place is left, and the sticky bit whether anything else is. -/
def Holds (em : ExtendedMantissa) (x : ℚ) : Prop :=
  ∃ f : ℚ, 0 ≤ f ∧ f < 1 ∧ x = em.mantissa + f ∧ (em.roundBit = true ↔ 1 / 2 ≤ f) ∧
    (em.stickyBit = true ↔ f ≠ 0 ∧ f ≠ 1 / 2)

theorem Holds.mantissa_le {em : ExtendedMantissa} {x : ℚ} (h : Holds em x) :
    (em.mantissa : ℚ) ≤ x := by
  obtain ⟨f, h0, -, rfl, -, -⟩ := h
  linarith

theorem Holds.lt_mantissa_succ {em : ExtendedMantissa} {x : ℚ} (h : Holds em x) :
    x < em.mantissa + 1 := by
  obtain ⟨f, -, h1, rfl, -, -⟩ := h
  linarith

/-- A mantissa without a rest stands for itself. -/
theorem holds_exact (m : ℕ) : Holds (.ofMantissaAndAccuracy m .exact) m :=
  ⟨0, le_rfl, one_pos, by simp [ExtendedMantissa.ofMantissaAndAccuracy],
    by simp [ExtendedMantissa.ofMantissaAndAccuracy],
    by simp [ExtendedMantissa.ofMantissaAndAccuracy]⟩

/-- The rest of a division is a fraction of the last place. -/
theorem holds_fraction {m num den : ℕ} (h : num < den) :
    Holds (.ofMantissaAndAccuracy m (accuracyOfFraction num den)) (m + (num : ℚ) / den) := by
  have hden : (0 : ℚ) < den := by exact_mod_cast (Nat.zero_le num).trans_lt h
  refine ⟨(num : ℚ) / den, by positivity, (div_lt_one hden).2 (by exact_mod_cast h), ?_⟩
  unfold accuracyOfFraction
  split
  · next h0 => simp [h0, ExtendedMantissa.ofMantissaAndAccuracy]
  · next h0 =>
    have hne : (num : ℚ) / den ≠ 0 :=
      div_ne_zero (by exact_mod_cast h0) hden.ne'
    rcases lt_trichotomy (2 * num) den with hlt | heq | hgt
    · have hf : (num : ℚ) / den < 1 / 2 := by
        rw [div_lt_div_iff₀ hden two_pos]
        exact_mod_cast (by omega : num * 2 < 1 * den)
      rw [Nat.compare_eq_lt.2 hlt]
      simpa [ExtendedMantissa.ofMantissaAndAccuracy, hne] using And.intro hf hf.ne
    · have hf : (num : ℚ) / den = 1 / 2 := by
        rw [div_eq_div_iff hden.ne' two_ne_zero]
        exact_mod_cast (by omega : num * 2 = 1 * den)
      rw [Nat.compare_eq_eq.2 heq]
      simp [ExtendedMantissa.ofMantissaAndAccuracy, hf]
    · have hf : 1 / 2 < (num : ℚ) / den := by
        rw [div_lt_div_iff₀ two_pos hden]
        exact_mod_cast (by omega : 1 * den < num * 2)
      rw [Nat.compare_eq_gt.2 hgt]
      simpa [ExtendedMantissa.ofMantissaAndAccuracy, hne] using And.intro hf.le hf.ne'

/-- The two bits together tell whether anything is left. -/
private theorem sticky_or_round_iff {f : ℚ} : (f ≠ 0 ∧ f ≠ 1 / 2) ∨ 1 / 2 ≤ f ↔ f ≠ 0 := by
  constructor
  · rintro (h | h)
    · exact h.1
    · linarith
  · intro h
    by_cases hhalf : f = 1 / 2
    · exact .inr hhalf.ge
    · exact .inl ⟨h, hhalf⟩

/-- Shifting by one place halves the number. -/
theorem Holds.shiftRightOne {em : ExtendedMantissa} {x : ℚ} (h : Holds em x) :
    Holds em.shiftRightOne (x / 2) := by
  obtain ⟨f, h0, h1, rfl, hround, hsticky⟩ := h
  have hm : ((em.mantissa % 2 : ℕ) : ℚ) + 2 * ((em.mantissa / 2 : ℕ) : ℚ) = em.mantissa := by
    exact_mod_cast Nat.mod_add_div em.mantissa 2
  -- What is left after the shift is half of the last bit and the former rest together.
  have hrest : (em.shiftRightOne.stickyBit = true) ↔ f ≠ 0 := by
    simp only [ExtendedMantissa.shiftRightOne, Bool.or_eq_true]
    rw [or_comm, hsticky, hround, sticky_or_round_iff]
  -- The bit shifted out becomes the round bit: the new rest is below a half or not as it tells.
  rcases Nat.mod_two_eq_zero_or_one em.mantissa with hbit | hbit
  · rw [hbit] at hm
    push_cast at hm
    refine ⟨f / 2, by linarith, by linarith, ?_, ?_, ?_⟩
    · simp only [ExtendedMantissa.shiftRightOne]
      linarith
    · simp only [ExtendedMantissa.shiftRightOne, hbit, bne_self_eq_false, Bool.false_eq_true,
        false_iff]
      linarith
    · rw [hrest]
      constructor
      · intro h
        exact ⟨by simpa using h, fun h' => by linarith⟩
      · rintro ⟨h, -⟩ h'
        exact h (by simp [h'])
  · rw [hbit] at hm
    push_cast at hm
    refine ⟨(1 + f) / 2, by linarith, by linarith, ?_, ?_, ?_⟩
    · simp only [ExtendedMantissa.shiftRightOne]
      linarith
    · simp only [ExtendedMantissa.shiftRightOne, hbit]
      constructor
      · intro
        linarith
      · intro
        rfl
    · rw [hrest]
      constructor
      · intro h
        exact ⟨by linarith, fun h' => h (by linarith)⟩
      · rintro ⟨-, h⟩ h'
        exact h (by simp [h'])

/-- Shifting by `n` places divides the number by `2 ^ n`. -/
theorem Holds.shiftRight {em : ExtendedMantissa} {x : ℚ} (h : Holds em x) (n : ℕ) :
    Holds (em >>> n) (x / 2 ^ n) := by
  -- A shift by `n` places is `n` shifts by one.
  change Holds (n.repeat ExtendedMantissa.shiftRightOne em) _
  induction n with
  | zero => simpa [Nat.repeat] using h
  | succ n ih =>
    rw [Nat.repeat, pow_succ, ← div_div]
    exact ih.shiftRightOne

/-- Rounding the mantissa is taking the nearest whole number. -/
theorem Holds.roundedMantissa {em : ExtendedMantissa} {x : ℚ} (h : Holds em x) :
    (em.roundedMantissa : ℤ) = nearest x := by
  obtain ⟨f, h0, h1, rfl, hround, hsticky⟩ := h
  rw [nearest_add h0 h1]
  rcases em with ⟨m, r, s⟩
  simp only at hround hsticky ⊢
  -- The two bits tell four cases apart, by how much of a place is left.
  cases r <;> cases s <;>
    simp only [ExtendedMantissa.roundedMantissa, ExtendedMantissa.accuracy,
      Accuracy.roundToNearestEven, Bool.false_eq_true, false_iff, true_iff, not_le, not_and_or,
      not_not] at hround hsticky ⊢
  · -- nothing is left
    rw [if_pos hround]
  · -- less than half a place is left
    rw [if_pos hround]
  · -- exactly half a place is left
    have hf : f = 1 / 2 := by
      rcases hsticky with h | h
      · linarith
      · exact h
    rw [if_neg (by linarith), if_neg (by linarith)]
    split_ifs <;> push_cast <;> omega
  · -- more than half a place is left
    have hf : 1 / 2 < f := lt_of_le_of_ne hround (Ne.symm hsticky.2)
    rw [if_neg (by linarith), if_pos hf]
    push_cast
    rfl

end Scorecard.Binary64
