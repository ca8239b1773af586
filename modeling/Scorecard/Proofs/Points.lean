import Scorecard.Grading.Status
import Scorecard.Proofs.Binary64.Whole

/-!
# Amounts of points

Amounts that count as equal are finite, and a finite amount counts as equal to itself. The score
of a criterion lies between nothing and all of its points, whatever the status; and scores that
do so have a finite total whenever the points themselves have one.

* `Points.same_self`, `Points.isFinite_of_same`: what it takes for amounts to be equal.
* `Points.Within.foldl`, `Points.Within.foldl_sublist`: sums of smaller amounts, or of fewer.
* `Points.isFinite_total`: smaller amounts have a finite total where greater ones have it.
* `Status.points_mono`, `Status.within_points`: a better status never has a smaller score, and none
  has more than all points.
-/

namespace Scorecard

open Binary64 Float.Model

namespace Points

/-! ### Equal amounts -/

/-- The comparison with the tolerance, on the parts of the numbers. -/
private theorem lt_tolerance_iff (x : Float) :
    x.abs < tolerance ↔ UnpackedFloat.lt (pack x.toModel.unpack.abs).unpack
      tolerance.toModel.unpack = true :=
  lt_iff_lt_unpack

/-- A finite amount counts as equal to itself. -/
theorem same_self {x : Float} (h : x.isFinite = true) : same x x = true := by
  obtain ⟨q, hx, -⟩ := exists_worth h
  -- The difference of a finite number and itself is exactly zero.
  have hdiff : Worth (x - x) 0 := by
    have hzero : rounded (q - q) = 0 := by rw [sub_self, rounded_zero]
    rw [← hzero]
    exact hx.sub hx (by rw [hzero, abs_zero]; exact limit_pos)
  obtain ⟨s, hs⟩ := hdiff.eq_zero
  rw [same, decide_eq_true_iff, lt_tolerance_iff, hs, UnpackedFloat.abs, unpack_pack_zero]
  decide

/-- Amounts that count as equal are finite. -/
theorem isFinite_of_same {x y : Float} (h : same x y = true) :
    x.isFinite = true ∧ y.isFinite = true := by
  apply isFinite_of_sub
  rw [same, decide_eq_true_iff, lt_tolerance_iff] at h
  change (x - y).toModel.unpack.isFinite = true
  generalize (x - y).toModel.unpack = u at h
  cases u with
  | notANumber => exact Bool.noConfusion h
  | infinity s =>
    -- No infinity lies below the tolerance.
    have hinf : UnpackedFloat.lt (.infinity .positive) tolerance.toModel.unpack = false := rfl
    rw [UnpackedFloat.abs, unpack_pack_infinity, hinf] at h
    exact Bool.noConfusion h
  | zero s => rfl
  | finite s m e hm => rfl

/-! ### Totals -/

/-- One amount lies between nothing and another one. -/
def Within (x y : Float) : Prop := ∃ p q, Worth x p ∧ Worth y q ∧ 0 ≤ p ∧ p ≤ q

/-- A total that is finite at its end has been finite all the time. -/
theorem isFinite_of_foldl {xs : List Float} {start : Float}
    (h : (xs.foldl (· + ·) start).isFinite = true) : start.isFinite = true := by
  induction xs generalizing start with
  | nil => exact h
  | cons x xs ih => exact (isFinite_of_add (ih h)).1

theorem Within.le {x y : Float} (h : Within x y) : x ≤ y := by
  obtain ⟨p, q, hx, hy, -, hle⟩ := h
  exact (hx.le_iff hy).2 hle

theorem Within.nonneg {x y : Float} (h : Within x y) : 0 ≤ x := by
  obtain ⟨p, q, hx, -, h0, -⟩ := h
  exact (worth_zero.le_iff hx).2 h0

/-- Adding keeps one amount between nothing and the other. -/
theorem Within.add {x y x' y' : Float} (h : Within x y) (h' : Within x' y')
    (hfinite : (y + y').isFinite = true) : Within (x + x') (y + y') := by
  obtain ⟨p, q, hx, hy, h0, hle⟩ := h
  obtain ⟨p', q', hx', hy', h0', hle'⟩ := h'
  -- Both sums are rounded, which keeps their order and their sign.
  have hmono : rounded (p + p') ≤ rounded (q + q') := rounded_mono (add_le_add hle hle')
  have hnonneg : 0 ≤ rounded (p + p') := rounded_nonneg (add_nonneg h0 h0')
  have hlimit := (hy.isFinite_add hy').1 hfinite
  rw [abs_of_nonneg (hnonneg.trans hmono)] at hlimit
  have hfits : |rounded (p + p')| < limit := by
    rw [abs_of_nonneg hnonneg]
    exact hmono.trans_lt hlimit
  exact ⟨_, _, hx.add hx' ((hx.isFinite_add hx').2 hfits), hy.add hy' hfinite, hnonneg, hmono⟩

/-- The run of two sums side by side: each amount added to the first stays within the one added
to the second. -/
theorem Within.foldl {xs ys : List Float} (h : List.Forall₂ Within xs ys) {x y : Float}
    (hstart : Within x y) (hfinite : (ys.foldl (· + ·) y).isFinite = true) :
    Within (xs.foldl (· + ·) x) (ys.foldl (· + ·) y) := by
  induction h generalizing x y with
  | nil => exact hstart
  | cons hhead _ ih => exact ih (hstart.add hhead (isFinite_of_foldl hfinite)) hfinite

/-- An amount stays within another one that grows. -/
theorem Within.grow {x y z : Float} (h : Within x y) (hz : Within z z)
    (hfinite : (y + z).isFinite = true) : Within x (y + z) := by
  obtain ⟨p, q, hx, hy, h0, hle⟩ := h
  obtain ⟨r, -, hworth, -, hr, -⟩ := hz
  have hmono : q ≤ rounded (q + r) := by
    calc q = rounded q := hy.rounded_self.symm
      _ ≤ rounded (q + r) := rounded_mono (le_add_of_nonneg_right hr)
  exact ⟨p, _, hx, hy.add hworth hfinite, h0, hle.trans hmono⟩

/-- The sum of some of the amounts stays within the sum of all. -/
theorem Within.foldl_sublist {xs ys : List Float} (h : xs.Sublist ys)
    (hys : ∀ y ∈ ys, Within y y) {x y : Float} (hstart : Within x y)
    (hfinite : (ys.foldl (· + ·) y).isFinite = true) :
    Within (xs.foldl (· + ·) x) (ys.foldl (· + ·) y) := by
  induction h generalizing x y with
  | slnil => exact hstart
  | cons z _ ih =>
    obtain ⟨hz, hrest⟩ := List.forall_mem_cons.1 hys
    exact ih hrest (hstart.grow hz (isFinite_of_foldl hfinite)) hfinite
  | cons_cons z _ ih =>
    obtain ⟨hz, hrest⟩ := List.forall_mem_cons.1 hys
    exact ih hrest (hstart.add hz (isFinite_of_foldl hfinite)) hfinite

/-- Amounts that lie within each other are worth the same. -/
theorem Within.antisymm {x y : Float} (h : Within x y) (h' : Within y x) :
    ∃ q, Worth x q ∧ Worth y q := by
  obtain ⟨p, q, hx, hy, -, hle⟩ := h
  obtain ⟨q', p', hy', hx', -, hle'⟩ := h'
  rw [hx.unique hx', hy.unique hy'] at hle
  have heq := le_antisymm hle hle'
  exact ⟨p', hx', heq ▸ hy'⟩

/-- A total starts with the negative zero. -/
theorem worth_neg_zero : Worth (-0.0) 0 := .zero .negative

/-- Both zeros lie within each other. -/
theorem within_of_zero {x y : Float} (hx : Worth x 0) (hy : Worth y 0) : Within x y :=
  ⟨0, 0, hx, hy, le_rfl, le_rfl⟩

/-- The sum of nothing is nothing. -/
theorem worth_foldl_zero {xs : List Float} (h : ∀ x ∈ xs, Worth x 0) {x : Float}
    (hx : Worth x 0) : Worth (xs.foldl (· + ·) x) 0 := by
  induction xs generalizing x with
  | nil => exact hx
  | cons y ys ih =>
    obtain ⟨hy, hys⟩ := List.forall_mem_cons.1 h
    have hsum : rounded (0 + 0) = 0 := by rw [add_zero, rounded_zero]
    have hfinite : (x + y).isFinite = true := by
      rw [hx.isFinite_add hy, hsum, abs_zero]
      exact limit_pos
    have hnext := hx.add hy hfinite
    rw [hsum] at hnext
    exact ih hys hnext

/-- A total is above zero if one of the amounts is. -/
theorem total_pos {xs : List Float} (hxs : ∀ x ∈ xs, Within x x)
    (hfinite : (total xs).isFinite = true) {x : Float} (hmem : x ∈ xs) (hpos : 0 < x) :
    0 < total xs := by
  obtain ⟨p, q, hsum, htotal, -, hle⟩ := Within.foldl_sublist (List.singleton_sublist.2 hmem) hxs
    (within_of_zero worth_zero worth_neg_zero) hfinite
  -- The total is not below the amount alone.
  obtain ⟨r, -, hworth, -⟩ := hxs x hmem
  have hr : 0 < r := hworth.pos hpos
  have hone := worth_zero.add hworth hsum.isFinite
  rw [zero_add, hworth.rounded_self] at hone
  rw [hsum.unique hone] at hle
  exact (worth_zero.lt_iff htotal).2 (hr.trans_le hle)

/-- Smaller amounts have a finite total where greater ones have it. -/
theorem isFinite_total {xs ys : List Float} (h : List.Forall₂ Within xs ys)
    (hfinite : (total ys).isFinite = true) : (total xs).isFinite = true := by
  obtain ⟨p, q, hp, -⟩ := Within.foldl h (within_of_zero worth_neg_zero worth_neg_zero) hfinite
  exact hp.isFinite

end Points

/-! ### Scores -/

namespace Status

/-- The position from the worst status up. -/
def rank : Status → Nat
  | unmet => 0
  | partly => 1
  | met => 2

/-- A status is at least as good as those below it. -/
instance : LE Status := ⟨fun s s' => s.rank ≤ s'.rank⟩

instance (s s' : Status) : Decidable (s ≤ s') := inferInstanceAs (Decidable (s.rank ≤ s'.rank))

theorem le_met (s : Status) : s ≤ met := by
  cases s <;> decide

/-- What the score of a criterion with that many points is worth. -/
def portion (s : Status) (q : ℚ) : ℚ :=
  match s with
  | met => q
  | partly => rounded (q / 2)
  | unmet => 0

variable {s s' : Status} {x : Float} {q : ℚ}

/-- A better status is never worth less. -/
theorem portion_mono (h : s ≤ s') (hself : rounded q = q) (hq : 0 ≤ q) :
    0 ≤ s.portion q ∧ s.portion q ≤ s'.portion q := by
  have hle : rounded (q / 2) ≤ q := by
    calc rounded (q / 2) ≤ rounded q := rounded_mono (half_le_self hq)
      _ = q := hself
  have hnonneg : 0 ≤ rounded (q / 2) := rounded_nonneg (by positivity)
  cases s with
  | unmet =>
    refine ⟨le_rfl, ?_⟩
    cases s' with
    | unmet => exact le_rfl
    | partly => exact hnonneg
    | met => exact hq
  | partly =>
    refine ⟨hnonneg, ?_⟩
    cases s' with
    | unmet => exact absurd h (by decide)
    | partly => exact le_rfl
    | met => exact hle
  | met =>
    refine ⟨hq, ?_⟩
    cases s' with
    | met => exact le_rfl
    | _ => exact absurd h (by decide)

theorem worth_points (s : Status) (h : Worth x q) (hq : 0 ≤ q) :
    Worth (s.points x) (s.portion q) := by
  cases s with
  | met => exact h
  | partly =>
    obtain ⟨hnonneg, hle⟩ := portion_mono (le_met partly) h.rounded_self hq
    have hfits : |partly.portion q| < limit := by
      rw [abs_of_nonneg hnonneg]
      exact lt_of_le_of_lt hle (lt_of_abs_lt h.abs_lt)
    exact h.div (worth_literal 2) two_ne_zero hfits
  | unmet => exact worth_zero

/-- A better status never has a smaller score. -/
theorem points_mono (hle : s ≤ s') (h : Worth x q) (hq : 0 ≤ q) :
    Points.Within (s.points x) (s'.points x) := by
  obtain ⟨hnonneg, hmono⟩ := portion_mono hle h.rounded_self hq
  exact ⟨_, _, s.worth_points h hq, s'.worth_points h hq, hnonneg, hmono⟩

/-- Whatever the status, the score lies between nothing and all of the points. -/
theorem within_points (s : Status) (h : Worth x q) (hq : 0 ≤ q) :
    Points.Within (s.points x) x := by
  have hmet : Points.Within (s.points x) (met.points x) := points_mono s.le_met h hq
  exact hmet

/-- Where the points are finite and not below zero, the score that the status fixes counts as
equal to itself. -/
theorem isConsistent_points (s : Status) (h : Worth x q) (hq : 0 ≤ q) :
    s.isConsistent (s.points x) x = true := by
  have hfinite := (s.worth_points h hq).isFinite
  unfold isConsistent
  exact Points.same_self hfinite

end Status

end Scorecard
