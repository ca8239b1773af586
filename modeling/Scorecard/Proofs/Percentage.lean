import Scorecard.Grading.Letter
import Scorecard.Proofs.Binary64.Whole
import Scorecard.Proofs.Points

/-!
# Percentages

A share is computed in four steps, each of which rounds: a quotient, two products and a quotient
again, with the nearest whole number in between. No step changes the order of two numbers, so that
a greater score never has a smaller percentage; all of the points are exactly a hundred percent, and
none of them exactly zero.

* `Points.share`: the percentage as a rational number.
* `Points.worth_percentage`: what a percentage is worth.
* `Points.percentage_mono`, `Points.percentage_within`: a greater score has no smaller percentage,
  and none lies beyond a hundred; `Points.percentage_full`, `Points.percentage_none`: the two ends.
* `Letter.ofPercentage_mono`: a greater percentage never has a worse grade.
-/

namespace Scorecard

open Binary64

namespace Points

/-- The number with two places, where a half goes up. -/
def hundredths (q : ℚ) : ℚ := rounded (⌊rounded (q * 100) + 1 / 2⌋ / 100)

/-- What share of `q` the number `p` is, in percent with two places. -/
def share (p q : ℚ) : ℚ := hundredths (rounded (rounded (p / q) * 100))

variable {p p' q : ℚ} {x y : Float}

/-! ### Order and ends -/

theorem hundredths_mono (h : p ≤ q) : hundredths p ≤ hundredths q := by
  -- Each of the three steps keeps the order, the whole number between them too.
  have hscaled : rounded (p * 100) ≤ rounded (q * 100) :=
    rounded_mono (mul_le_mul_of_nonneg_right h (by norm_num))
  have hfloor : ⌊rounded (p * 100) + 1 / 2⌋ ≤ ⌊rounded (q * 100) + 1 / 2⌋ :=
    Int.floor_mono (by linarith)
  exact rounded_mono (div_le_div_of_nonneg_right (by exact_mod_cast hfloor) (by norm_num))

/-- A greater part has no smaller share. -/
theorem share_mono (hq : 0 < q) (h : p ≤ p') : share p q ≤ share p' q := by
  have hquotient : rounded (p / q) ≤ rounded (p' / q) :=
    rounded_mono (div_le_div_of_nonneg_right h hq.le)
  exact hundredths_mono (rounded_mono (mul_le_mul_of_nonneg_right hquotient (by norm_num)))

/-- A literal below 2 ^ 53 is a number as it stands. -/
private theorem rounded_literal (n : ℕ) [n.AtLeastTwo] (h : n < 2 ^ 53) :
    rounded (OfNat.ofNat n) = OfNat.ofNat n := rounded_natCast h

theorem share_self (hq : 0 < q) : share q q = 100 := by
  -- All numbers on the way are whole and small, so that no step rounds.
  have hfloor : ⌊(10000 : ℚ) + 1 / 2⌋ = 10000 := by
    rw [Int.floor_eq_iff]
    norm_num
  have hhundred := rounded_literal 100 (by norm_num)
  have hscaled := rounded_literal 10000 (by norm_num)
  unfold share hundredths
  rw [div_self hq.ne', rounded_one, one_mul, hhundred, show (100 : ℚ) * 100 = 10000 by norm_num,
    hscaled, hfloor]
  norm_num [hhundred]

theorem share_zero (q : ℚ) : share 0 q = 0 := by
  have hfloor : ⌊(0 : ℚ) + 1 / 2⌋ = 0 := by
    rw [Int.floor_eq_iff]
    norm_num
  unfold share hundredths
  rw [zero_div, rounded_zero, zero_mul, rounded_zero, zero_mul, rounded_zero, hfloor]
  norm_num

/-! ### What a percentage is worth -/

/-- One hundred is a number as it stands. -/
private theorem worth_hundred : Worth 100 100 := worth_literal 100

/-- The number with two places is worth the one computed exactly, as each step leaves it. -/
private theorem worth_toHundredths (hx : Worth x q) (h0 : 0 ≤ q) (h : q ≤ 100) :
    Worth (toHundredths x) (hundredths q) := by
  have hscaled : 0 ≤ q * 100 ∧ q * 100 ≤ (10000 : ℕ) := by
    push_cast
    constructor <;> linarith
  have hproduct := hx.mul worth_hundred (abs_rounded_lt_of_nat hscaled.1 hscaled.2 (by norm_num))
  have h0' : 0 ≤ rounded (q * 100) := rounded_nonneg hscaled.1
  have hround := worth_round hproduct h0'
  -- The number of hundredths is not below zero, and not beyond what it was rounded from.
  have hcount : 0 ≤ (⌊rounded (q * 100) + 1 / 2⌋ : ℚ) / 100 := by
    have : 0 ≤ ⌊rounded (q * 100) + 1 / 2⌋ := Int.floor_nonneg.2 (by linarith)
    have : (0 : ℚ) ≤ ⌊rounded (q * 100) + 1 / 2⌋ := by exact_mod_cast this
    positivity
  have hle : (⌊rounded (q * 100) + 1 / 2⌋ : ℚ) / 100 ≤ (10001 : ℕ) := by
    have hmono := rounded_mono hscaled.2
    rw [rounded_natCast (by norm_num)] at hmono
    have hfloor := Int.floor_le (rounded (q * 100) + 1 / 2)
    push_cast at hmono ⊢
    linarith
  exact hround.div worth_hundred (by norm_num) (abs_rounded_lt_of_nat hcount hle (by norm_num))

/-- A percentage is worth the share, if the score lies between nothing and all of the points. -/
theorem worth_percentage (hx : Worth x p) (hy : Worth y q) (h0 : 0 ≤ p) (hle : p ≤ q)
    (hq : 0 < q) : Worth (percentage x y) (share p q) := by
  have hpositive : ¬ y ≤ 0 := by
    rw [hy.le_iff worth_zero]
    exact not_le.2 hq
  have hquotient0 : 0 ≤ p / q := div_nonneg h0 hq.le
  have hquotient1 : p / q ≤ (1 : ℕ) := by
    rw [Nat.cast_one]
    exact (div_le_one hq).2 hle
  have hdiv := hx.div hy hq.ne' (abs_rounded_lt_of_nat hquotient0 hquotient1 (by norm_num))
  have hmono := rounded_mono hquotient1
  rw [Nat.cast_one, rounded_one] at hmono
  have hnonneg := rounded_nonneg hquotient0
  have hpercent0 : 0 ≤ rounded (p / q) * 100 := by positivity
  have hpercent1 : rounded (p / q) * 100 ≤ (100 : ℕ) := by
    push_cast
    linarith
  -- No step leaves the range of the numbers, as the quotient is one at most.
  have hmul := hdiv.mul worth_hundred (abs_rounded_lt_of_nat hpercent0 hpercent1 (by norm_num))
  have hmono' := rounded_mono hpercent1
  rw [rounded_natCast (by norm_num)] at hmono'
  unfold percentage
  rw [if_neg hpositive]
  exact worth_toHundredths hmul (rounded_nonneg hpercent0) (by exact_mod_cast hmono')

/-! ### Percentages of amounts -/

variable {z : Float}

/-- A greater score has no smaller percentage, and none is below zero. -/
theorem percentage_mono (hxy : Within x y) (hyz : Within y z) (hz : 0 < z) :
    Within (percentage x z) (percentage y z) := by
  obtain ⟨p, p', hx, hy, h0, hle⟩ := hxy
  obtain ⟨p'', q, hy', hworth, h0', hle'⟩ := hyz
  -- The amount in the middle is worth the same number on either side.
  obtain rfl := hy.unique hy'
  have hq : 0 < q := hworth.pos hz
  exact ⟨_, _, worth_percentage hx hworth h0 (hle.trans hle') hq,
    worth_percentage hy hworth h0' hle' hq, (share_zero q).ge.trans (share_mono hq h0),
    share_mono hq hle⟩

/-- All of the points are a hundred percent. -/
theorem percentage_full (hxz : Within x z) (hzx : Within z x) (hz : 0 < z) :
    Worth (percentage x z) 100 := by
  obtain ⟨q, hx, hworth⟩ := hxz.antisymm hzx
  have hq : 0 < q := hworth.pos hz
  have h := worth_percentage hx hworth hq.le le_rfl hq
  rwa [share_self hq] at h

/-- None of the points are zero percent. -/
theorem percentage_none (hx : Worth x 0) (hxz : Within x z) (hz : 0 < z) :
    Worth (percentage x z) 0 := by
  obtain ⟨p, q, hx', hworth, h0, hle⟩ := hxz
  obtain rfl := hx.unique hx'
  have h := worth_percentage hx hworth h0 hle (hworth.pos hz)
  rwa [share_zero] at h

/-- A percentage lies in percent. -/
theorem percentage_within (hxz : Within x z) (hz : 0 < z) : Within (percentage x z) 100 := by
  have hz' : Within z z := by
    obtain ⟨p, q, -, hworth, h0, hle⟩ := hxz
    exact ⟨q, q, hworth, hworth, h0.trans hle, le_rfl⟩
  obtain ⟨p, q, hpercentage, hfull, h0, hle⟩ := percentage_mono hxz hz' hz
  rw [hfull.unique (percentage_full hz' hz' hz)] at hle
  exact ⟨p, 100, hpercentage, worth_hundred, h0, hle⟩

end Points

/-! ### Grades -/

namespace Letter

/-- The position from the worst grade up. -/
def rank : Letter → Nat
  | f => 0
  | d => 1
  | c => 2
  | b => 3
  | a => 4

/-- A grade is at least as good as those below it. -/
instance : LE Letter := ⟨fun g g' => g.rank ≤ g'.rank⟩

/-- The grade of a percentage that is worth some number. -/
private theorem ofPercentage_eq {x : Float} {p : ℚ} (hx : Worth x p) :
    ofPercentage x = if 90 ≤ p then a else if 80 ≤ p then b else if 70 ≤ p then c
      else if 60 ≤ p then d else f := by
  have h90 : 90 ≤ x ↔ 90 ≤ p := (worth_literal 90).le_iff hx
  have h80 : 80 ≤ x ↔ 80 ≤ p := (worth_literal 80).le_iff hx
  have h70 : 70 ≤ x ↔ 70 ≤ p := (worth_literal 70).le_iff hx
  have h60 : 60 ≤ x ↔ 60 ≤ p := (worth_literal 60).le_iff hx
  unfold ofPercentage
  simp only [h90, h80, h70, h60]

/-- A greater percentage never has a worse grade. -/
theorem ofPercentage_mono {x y : Float} {p q : ℚ} (hx : Worth x p) (hy : Worth y q) (h : p ≤ q) :
    ofPercentage x ≤ ofPercentage y := by
  change (ofPercentage x).rank ≤ (ofPercentage y).rank
  rw [ofPercentage_eq hx, ofPercentage_eq hy]
  -- A cut-off that the smaller percentage reaches is reached by the greater one.
  split_ifs <;> first | decide | (exfalso; linarith)

theorem ofPercentage_hundred {x : Float} (hx : Worth x 100) : ofPercentage x = a := by
  rw [ofPercentage_eq hx, if_pos (by norm_num)]

theorem ofPercentage_zero {x : Float} (hx : Worth x 0) : ofPercentage x = f := by
  rw [ofPercentage_eq hx, if_neg (by norm_num), if_neg (by norm_num), if_neg (by norm_num),
    if_neg (by norm_num)]

end Letter

end Scorecard
