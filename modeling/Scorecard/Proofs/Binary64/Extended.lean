import Mathlib.Order.WithBot
import Scorecard.Proofs.Binary64.Order

/-!
# Numbers and infinities

A binary64 number stands for a rational number or for one of two infinities, unless it is no number
at all. The order of numbers is that of what they stand for, and nothing is comparable with what is
no number. Adding a finite number to two others, or subtracting it from them, keeps their order,
whether the results fit or become infinite.

* `Extended`: a number stands for a rational number or an infinity.
* `Extended.le_iff`, `exists_extended_of_le`: the order.
* `le_trans`, `add_le_add_right`, `sub_le_sub_right`: what follows for any numbers.
-/

namespace Scorecard.Binary64

open Float.Model Float.Model.UnpackedFloat

/-- The rational numbers and two infinities. -/
abbrev ExtendedRat := WithBot (WithTop ℚ)

/-- A number taken apart stands for a rational number or an infinity. -/
inductive DenotesExtended : UnpackedFloat → ExtendedRat → Prop
  | finite {a : UnpackedFloat} {p : ℚ} (h : Denotes a p) : DenotesExtended a p
  | top : DenotesExtended (.infinity .positive) ⊤
  | bot : DenotesExtended (.infinity .negative) ⊥

/-- The number stands for a rational number or an infinity. -/
def Extended (x : Float) (v : ExtendedRat) : Prop := DenotesExtended x.toModel.unpack v

variable {a b : UnpackedFloat} {x y z : Float} {p q : ℚ} {v w : ExtendedRat}

/-! ### The order -/

/-- Numbers taken apart compare as what they stand for. -/
theorem DenotesExtended.compare (ha : DenotesExtended a v) (hb : DenotesExtended b w) :
    UnpackedFloat.compare a b = some (cmp v w) := by
  -- The rational numbers lie among the others in their own order.
  have hcoe : StrictMono fun q : ℚ => (q : ExtendedRat) :=
    WithBot.coe_strictMono.comp WithTop.coe_strictMono
  cases ha with
  | finite ha =>
    cases hb with
    | finite hb =>
      rw [ha.compare hb]
      exact congrArg some (hcoe.cmp_map_eq _ _).symm
    | top =>
      rw [(cmp_eq_lt_iff _ _).2 (WithBot.coe_lt_coe.2 (WithTop.coe_lt_top _))]
      cases ha <;> rfl
    | bot =>
      rw [(cmp_eq_gt_iff _ _).2 (WithBot.bot_lt_coe _)]
      cases ha <;> rfl
  | top =>
    cases hb with
    | finite hb =>
      rw [(cmp_eq_gt_iff _ _).2 (WithBot.coe_lt_coe.2 (WithTop.coe_lt_top _))]
      cases hb <;> rfl
    | top => rw [cmp_self_eq_eq]; rfl
    | bot => rw [(cmp_eq_gt_iff _ _).2 bot_lt_top]; rfl
  | bot =>
    cases hb with
    | finite hb =>
      rw [(cmp_eq_lt_iff _ _).2 (WithBot.bot_lt_coe _)]
      cases hb <;> rfl
    | top => rw [(cmp_eq_lt_iff _ _).2 bot_lt_top]; rfl
    | bot => rw [cmp_self_eq_eq]; rfl

theorem Extended.le_iff (hx : Extended x v) (hy : Extended y w) : x ≤ y ↔ v ≤ w := by
  rw [le_iff_isLE_compare, DenotesExtended.compare hx hy, Option.any_some, isLE_cmp]

/-- Only what is no number stands for nothing. -/
private theorem exists_extended_or (x : Float) :
    (∃ v, Extended x v) ∨ x.toModel.unpack = .notANumber := by
  unfold Extended
  cases hx : x.toModel.unpack with
  | notANumber => exact .inr rfl
  | infinity s =>
    cases s with
    | positive => exact .inl ⟨_, .top⟩
    | negative => exact .inl ⟨_, .bot⟩
  | zero s => exact .inl ⟨_, .finite (.zero s)⟩
  | finite s m e hm =>
    have hfinite : x.toModel.unpack.isFinite = true := by
      rw [hx]
      rfl
    obtain ⟨q, hq, -⟩ := denotes_unpack x.toModel hfinite
    exact .inl ⟨_, .finite (hx ▸ hq)⟩

/-- Numbers that are in order stand for something. -/
theorem exists_extended_of_le (h : x ≤ y) : (∃ v, Extended x v) ∧ ∃ w, Extended y w := by
  rw [le_iff_isLE_compare] at h
  constructor
  · refine (exists_extended_or x).resolve_right fun hx => ?_
    rw [hx] at h
    exact Bool.noConfusion h
  · refine (exists_extended_or y).resolve_right fun hy => ?_
    rw [hy] at h
    -- What is no number compares with nothing.
    generalize x.toModel.unpack = a at h
    cases a <;> exact Bool.noConfusion h

protected theorem le_trans (h : x ≤ y) (h' : y ≤ z) : x ≤ z := by
  obtain ⟨⟨u, hx⟩, v, hy⟩ := exists_extended_of_le h
  obtain ⟨-, w, hz⟩ := exists_extended_of_le h'
  rw [hx.le_iff hy] at h
  rw [hy.le_iff hz] at h'
  rw [hx.le_iff hz]
  exact h.trans h'

/-! ### Sums -/

/-- What becomes of a rational number that may not fit. -/
def packed (p : ℚ) : ExtendedRat :=
  if limit ≤ p then ⊤ else if p ≤ -limit then ⊥ else p

theorem packed_mono (h : p ≤ q) : packed p ≤ packed q := by
  unfold packed
  -- What is too great stays so above, and what is too small stays so below.
  by_cases hq : limit ≤ q
  · rw [if_pos hq]
    exact le_top
  · rw [if_neg hq, if_neg fun hp => hq (hp.trans h)]
    by_cases hp : p ≤ -limit
    · rw [if_pos hp]
      exact bot_le
    · rw [if_neg hp, if_neg fun hq => hp (h.trans hq)]
      exact WithBot.coe_le_coe.2 (WithTop.coe_le_coe.2 h)

/-- A result stands for what it is, or for an infinity if it does not fit. -/
theorem Denotes.extended_pack (ha : Denotes a p) :
    DenotesExtended (Float.Model.pack a).unpack (packed p) := by
  unfold packed
  -- What does not fit has the infinity of its own sign.
  by_cases hp : |p| < limit
  · obtain ⟨hlow, hhigh⟩ := abs_lt.1 hp
    rw [ha.unpack_pack hp, if_neg (not_le.2 hhigh), if_neg (not_le.2 hlow)]
    exact .finite ha
  · obtain ⟨s, hpack, hsign⟩ := ha.unpack_pack_of_limit_le (not_lt.1 hp)
    rw [hpack]
    cases s with
    | positive =>
      rw [factor, one_mul] at hsign
      have hhigh : limit ≤ p := (not_lt.1 hp).trans_eq hsign.symm
      rw [if_pos hhigh]
      exact .top
    | negative =>
      rw [factor, neg_one_mul] at hsign
      have hlow : p ≤ -limit := hsign.trans_le (neg_le_neg (not_lt.1 hp))
      have hhigh : p < limit := hlow.trans_lt (neg_lt_self limit_pos)
      rw [if_neg (not_le.2 hhigh), if_pos hlow]
      exact .bot

/-- What becomes of a number when a finite one is added. -/
def shifted (p : ℚ) : ExtendedRat → ExtendedRat
  | none => ⊥
  | some none => ⊤
  | some (some q) => packed (rounded (q + p))

theorem shifted_mono (p : ℚ) : Monotone (shifted p) := by
  intro v w h
  match v, w, h with
  | none, _, _ => exact bot_le
  | _, some none, _ => exact le_top
  | some (some q), some (some q'), h =>
    -- Rounding keeps the order, and so does the limit on both sides.
    have hq : q ≤ q' := WithTop.coe_le_coe.1 (WithBot.coe_le_coe.1 h)
    exact packed_mono (rounded_mono (add_le_add_left hq p))

theorem DenotesExtended.add (ha : DenotesExtended a v) (hb : Denotes b p) :
    DenotesExtended (Float.Model.pack (UnpackedFloat.add .binary64 a b)).unpack (shifted p v) := by
  cases ha with
  | finite ha => exact (ha.add hb).extended_pack
  | top =>
    -- An infinity takes up every finite number.
    have hsum : UnpackedFloat.add .binary64 (.infinity .positive) b = .infinity .positive := by
      cases hb <;> rfl
    rw [hsum, unpack_pack_infinity]
    exact .top
  | bot =>
    have hsum : UnpackedFloat.add .binary64 (.infinity .negative) b = .infinity .negative := by
      cases hb <;> rfl
    rw [hsum, unpack_pack_infinity]
    exact .bot

/-- Adding a finite number keeps the order. -/
protected theorem add_le_add_right (h : x ≤ y) (hz : z.isFinite = true) : x + z ≤ y + z := by
  obtain ⟨⟨v, hx⟩, w, hy⟩ := exists_extended_of_le h
  obtain ⟨p, hz, -⟩ := exists_worth hz
  have hsum : Extended (x + z) (shifted p v) := DenotesExtended.add hx hz
  have hsum' : Extended (y + z) (shifted p w) := DenotesExtended.add hy hz
  rw [hx.le_iff hy] at h
  rw [hsum.le_iff hsum']
  exact shifted_mono p h

/-- Subtracting a finite number keeps the order. -/
protected theorem sub_le_sub_right (h : x ≤ y) (hz : z.isFinite = true) : x - z ≤ y - z := by
  obtain ⟨⟨v, hx⟩, w, hy⟩ := exists_extended_of_le h
  obtain ⟨p, hz, -⟩ := exists_worth hz
  -- The opposite number is added.
  have hdiff {u : ExtendedRat} {x : Float} (hx : Extended x u) :
      Extended (x - z) (shifted (-p) u) := by
    have hsum := DenotesExtended.add hx (Denotes.neg hz)
    rw [← sub_eq_add_opposite] at hsum
    exact hsum
  rw [hx.le_iff hy] at h
  rw [(hdiff hx).le_iff (hdiff hy)]
  exact shifted_mono (-p) h

end Scorecard.Binary64
