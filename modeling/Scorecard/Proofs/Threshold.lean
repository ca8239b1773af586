import Scorecard.Rule.Basic
import Scorecard.Proofs.Binary64.Extended
import Scorecard.Proofs.Except
import Scorecard.Proofs.Points
import Scorecard.Proofs.Snapshot

/-!
# Thresholds

A share is a quotient of two counts, each of which is rounded to a number first, and it reaches a
threshold if it does so with a slack, which is added with rounding. None of these steps changes the
order of two numbers, so that a greater part has no smaller share, and a greater share reaches every
threshold that a smaller one reaches.

* `liesWithin_ofNat_iff`: the numbers between zero and a bound, by what they are worth.
* `le_of_checkFloors`: a threshold for a partial status is no higher than the one that it relaxes.
* `rel_ratio?`: two shares of one whole.
* `atLeast_mono`, `atLeast_of_le`, `atMost_mono`, `atMost_of_le`: thresholds that are reached.
* `Status.ofTests_atLeast_mono`: a greater measurement never has a worse status.
-/

namespace Scorecard

open Binary64

variable {x y t u : Float} {bound : ℕ}

/-! ### Bounds -/

/-- Between zero and a natural number lie the finite numbers that are worth so much. -/
theorem liesWithin_ofNat_iff (hbound : bound < 2 ^ 53) :
    liesWithin (Float.ofNat bound) x = true ↔ ∃ q, Worth x q ∧ 0 ≤ q ∧ q ≤ bound := by
  rw [liesWithin_eq_true_iff]
  constructor
  · rintro ⟨hfinite, h0, hle⟩
    obtain ⟨q, hx, -⟩ := exists_worth hfinite
    exact ⟨q, hx, (worth_zero.le_iff hx).1 h0, (hx.le_iff (worth_ofNat hbound)).1 hle⟩
  · rintro ⟨q, hx, h0, hle⟩
    exact ⟨hx.isFinite, (worth_zero.le_iff hx).2 h0, (hx.le_iff (worth_ofNat hbound)).2 hle⟩

theorem checkWithin_eq_ok_iff {name : String} :
    checkWithin bound name x = .ok () ↔ liesWithin (Float.ofNat bound) x = true := by
  unfold checkWithin
  by_cases h : liesWithin (Float.ofNat bound) x = true
  · simp [h]
  · simp [h]

/-- A threshold for a partial status that has been checked is no higher than the one that it
relaxes. -/
theorem le_of_checkFloors {name partialName : String} {least : Float} {partialLeast : Option Float}
    (hbound : bound < 2 ^ 53)
    (h : checkFloors bound name least partialName partialLeast = .ok ()) :
    ∀ t ∈ partialLeast, t ≤ least := by
  intro t ht
  unfold checkFloors at h
  rw [Option.mem_def.1 ht] at h
  obtain ⟨⟨⟩, hleast, h⟩ := Except.bind_eq_ok_iff.1 h
  obtain ⟨⟨⟩, hpartial, h⟩ := Except.bind_eq_ok_iff.1 h
  rw [checkWithin_eq_ok_iff, liesWithin_ofNat_iff hbound] at hleast hpartial
  obtain ⟨q, hq, -⟩ := hleast
  obtain ⟨p, hp, -⟩ := hpartial
  -- Both are finite, so that one that is not below the other is at least as high.
  rw [hp.le_iff hq, ← not_lt, ← hq.lt_iff hp]
  exact (Except.ite_error_eq_ok_iff.1 h).1

/-! ### Shares -/

section

variable {part part' whole : UInt64}

/-- A count is no greater as a number than one that it does not exceed. -/
private theorem rounded_toNat_mono (h : part ≤ whole) :
    rounded (part.toNat : ℚ) ≤ rounded (whole.toNat : ℚ) :=
  rounded_mono (by exact_mod_cast UInt64.le_iff_toNat_le.1 h)

/-- A whole number other than zero is positive after rounding. -/
private theorem rounded_toNat_pos (h : whole ≠ 0) : 0 < rounded (whole.toNat : ℚ) := by
  have hwhole : 1 ≤ whole.toNat := Nat.one_le_iff_ne_zero.2 fun h0 => h (UInt64.toNat_inj.1 h0)
  -- Rounding keeps the order, and one is a number of the machine.
  calc 0 < rounded 1 := by rw [rounded_one]; exact one_pos
    _ ≤ rounded (whole.toNat : ℚ) := rounded_mono (by exact_mod_cast hwhole)

/-- What a share is worth. -/
private theorem worth_share (h : part ≤ whole) (hne : whole ≠ 0) :
    Worth (part.toFloat / whole.toFloat)
      (rounded (rounded (part.toNat : ℚ) / rounded (whole.toNat : ℚ))) := by
  -- The whole is not zero, so that the quotient is that of rational numbers.
  have hpos := rounded_toNat_pos hne
  have h0 : 0 ≤ rounded (part.toNat : ℚ) / rounded (whole.toNat : ℚ) :=
    div_nonneg (rounded_nonneg (Nat.cast_nonneg _)) hpos.le
  have h1 : rounded (part.toNat : ℚ) / rounded (whole.toNat : ℚ) ≤ 1 :=
    (div_le_one hpos).2 (rounded_toNat_mono h)
  have hfits := abs_rounded_lt_of_nat (n := 1) h0 (by rwa [Nat.cast_one]) (by norm_num)
  exact (worth_toFloat part).div (worth_toFloat whole) hpos.ne' hfits

/-- A greater part has no smaller share. -/
theorem share_mono (h : part ≤ part') (h' : part' ≤ whole) (hne : whole ≠ 0) :
    part.toFloat / whole.toFloat ≤ part'.toFloat / whole.toFloat := by
  rw [(worth_share (UInt64.le_trans h h') hne).le_iff (worth_share h' hne)]
  exact rounded_mono
    (div_le_div_of_nonneg_right (rounded_toNat_mono h) (rounded_nonneg (Nat.cast_nonneg _)))

/-- Two shares of one whole, the second of which is no smaller; or none of nothing. -/
theorem rel_ratio? (h : part ≤ part') (h' : part' ≤ whole) :
    Option.Rel (· ≤ ·) (ratio? part whole) (ratio? part' whole) := by
  unfold ratio?
  -- Of nothing there is no share, whatever the part.
  by_cases hwhole : whole = 0
  · rw [if_pos hwhole, if_pos hwhole]
    exact .none
  · rw [if_neg hwhole, if_neg hwhole]
    exact .some (share_mono h h' hwhole)

end

/-! ### Slack -/

/-- The slack of a threshold is finite. -/
private theorem isFinite_thresholdSlack : thresholdSlack.isFinite = true := by decide +kernel

/-- A greater number reaches every threshold that a smaller one reaches. -/
theorem atLeast_mono (hxy : x ≤ y) (h : atLeast x t = true) : atLeast y t = true := by
  unfold atLeast at h ⊢
  rw [decide_eq_true_iff] at h ⊢
  -- The slack is finite, so that adding it keeps the order.
  exact Binary64.le_trans h (Binary64.add_le_add_right hxy isFinite_thresholdSlack)

/-- A number that reaches a threshold reaches every lower one. -/
theorem atLeast_of_le (htu : t ≤ u) (h : atLeast x u = true) : atLeast x t = true := by
  unfold atLeast at h ⊢
  rw [decide_eq_true_iff] at h ⊢
  exact Binary64.le_trans htu h

/-- A smaller number stays under every threshold that a greater one stays under. -/
theorem atMost_mono (hxy : x ≤ y) (h : atMost y t = true) : atMost x t = true := by
  unfold atMost at h ⊢
  rw [decide_eq_true_iff] at h ⊢
  exact Binary64.le_trans (Binary64.sub_le_sub_right hxy isFinite_thresholdSlack) h

/-- A number that stays under a threshold stays under every higher one. -/
theorem atMost_of_le (htu : t ≤ u) (h : atMost x t = true) : atMost x u = true := by
  unfold atMost at h ⊢
  rw [decide_eq_true_iff] at h ⊢
  exact Binary64.le_trans h htu

/-! ### Statuses -/

namespace Status

theorem unmet_le (s : Status) : unmet ≤ s := by
  cases s <;> decide

protected theorem le_antisymm {s t : Status} (h : s ≤ t) (h' : t ≤ s) : s = t := by
  cases s <;> cases t <;> first | rfl | exact absurd h (by decide) | exact absurd h' (by decide)

/-- A measurement that passes all that another one passes has no worse status. -/
theorem ofTests_mono {α : Type} {met met' : Bool} {threshold : Option α} {passes passes' : α → Bool}
    (hmet : met = true → met' = true)
    (hpasses : ∀ t ∈ threshold, passes t = true → passes' t = true) :
    ofTests met (threshold.map passes) ≤ ofTests met' (threshold.map passes') := by
  unfold ofTests
  -- What is met stays met; else the threshold is looked at again.
  cases hm : met with
  | true =>
    rw [hmet hm]
    exact le_met _
  | false =>
    rw [if_neg Bool.false_ne_true]
    split
    · next hpartly =>
      obtain ⟨t, ht, hpass⟩ := Option.map_eq_some_iff.1 hpartly
      have hpartly' : threshold.map passes' = some true := by
        rw [ht, Option.map_some, hpasses t ht hpass]
      rw [if_pos hpartly']
      split <;> decide
    · exact unmet_le _

/-- A greater measurement never has a worse status. -/
theorem ofTests_atLeast_mono {least : Float} {partialLeast : Option Float} (hxy : x ≤ y) :
    ofTests (atLeast x least) (partialLeast.map (atLeast x ·)) ≤
      ofTests (atLeast y least) (partialLeast.map (atLeast y ·)) :=
  ofTests_mono (atLeast_mono hxy) fun _ _ => atLeast_mono hxy

end Status

end Scorecard
