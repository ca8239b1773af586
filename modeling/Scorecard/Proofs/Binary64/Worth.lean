import Scorecard.Proofs.Binary64.Packing

/-!
# Finite numbers and their worth

A finite binary64 number is worth a rational number. What an operation on two finite numbers is
worth follows from what they are worth, as long as the result is finite; and once a sum is not
finite it does not become so again.

* `Worth`, `exists_worth`: a number is worth a rational number if it is finite.
* `Worth.add`, `Worth.isFinite_add`: what a sum is worth, and when it is finite.
* `isFinite_of_add`: only finite numbers have a finite sum.
-/

namespace Scorecard.Binary64

open Float.Model Float.Model.UnpackedFloat

/-- The number is finite, and it is that rational number. -/
def Worth (x : Float) (q : ℚ) : Prop := Denotes x.toModel.unpack q

/-! ### Finite numbers -/

theorem Worth.isFinite {x : Float} {q : ℚ} (h : Worth x q) : x.isFinite = true := by
  change x.toModel.unpack.isFinite = true
  unfold Worth at h
  generalize x.toModel.unpack = u at h
  cases h <;> rfl

theorem exists_worth {x : Float} (h : x.isFinite = true) : ∃ q, Worth x q ∧ |q| < limit :=
  denotes_unpack x.toModel h

theorem worth_zero : Worth 0 0 := by
  have hunpack : (0 : Float).toModel.unpack = .zero .positive := rfl
  unfold Worth
  rw [hunpack]
  exact .zero .positive

/-- A number is worth one rational number only. -/
theorem Worth.unique {x : Float} {p q : ℚ} (hp : Worth x p) (hq : Worth x q) : p = q := by
  unfold Worth at hp hq
  generalize x.toModel.unpack = u at hp hq
  -- The parts of a number fix what it is worth.
  cases hp with
  | zero s => cases hq with | zero _ => rfl
  | finite s hm h => cases hq with | finite _ _ _ => rfl

theorem Worth.abs_lt {x : Float} {q : ℚ} (h : Worth x q) : |q| < limit := by
  obtain ⟨p, hp, hlt⟩ := exists_worth h.isFinite
  rwa [h.unique hp]

theorem Worth.rounded_self {x : Float} {q : ℚ} (h : Worth x q) : rounded q = q :=
  Denotes.rounded_self h

/-- Numbers are compared by their parts. -/
theorem lt_iff_lt_unpack {x y : Float} :
    x < y ↔ UnpackedFloat.lt x.toModel.unpack y.toModel.unpack = true := by
  change decide (x.toModel < y.toModel) = true ↔ _
  rw [decide_eq_true_iff]
  rfl

/-- A number above zero is worth more than nothing. -/
theorem Worth.pos {x : Float} {q : ℚ} (h : Worth x q) (hx : 0 < x) : 0 < q := by
  have hzero : (0 : Float).toModel.unpack = .zero .positive := rfl
  have hlt := lt_iff_lt_unpack.1 hx
  rw [hzero] at hlt
  unfold Worth at h
  generalize x.toModel.unpack = u at h hlt
  -- Neither a zero nor a negative number lies above zero.
  cases h with
  | zero s => exact Bool.noConfusion hlt
  | finite s hm h =>
    cases s with
    | negative => exact Bool.noConfusion hlt
    | positive =>
      rw [factor, one_mul]
      exact mul_pos (by exact_mod_cast hm) (two_zpow_pos _)

/-! ### Operations -/

/-- What comes out of packing a result that fits. -/
private theorem worth_pack {a : UnpackedFloat} {p : ℚ} (ha : Denotes a p) (hp : |p| < limit) :
    Worth (.ofModel (.pack a)) p := by
  change Denotes (Float.Model.pack a).unpack p
  rwa [ha.unpack_pack hp]

/-- A sum is finite if and only if the exact sum, rounded, fits. -/
theorem Worth.isFinite_add {x y : Float} {p q : ℚ} (hx : Worth x p) (hy : Worth y q) :
    (x + y).isFinite = true ↔ |rounded (p + q)| < limit :=
  (Denotes.add hx hy).isFinite_pack

/-- A finite sum is worth the exact sum, rounded. -/
theorem Worth.add {x y : Float} {p q : ℚ} (hx : Worth x p) (hy : Worth y q)
    (h : (x + y).isFinite = true) : Worth (x + y) (rounded (p + q)) :=
  worth_pack (Denotes.add hx hy) ((hx.isFinite_add hy).1 h)

/-- A difference that fits is worth the exact difference, rounded. -/
theorem Worth.sub {x y : Float} {p q : ℚ} (hx : Worth x p) (hy : Worth y q)
    (h : |rounded (p - q)| < limit) : Worth (x - y) (rounded (p - q)) :=
  worth_pack (Denotes.sub hx hy) h

/-- A product that fits is worth the exact product, rounded. -/
theorem Worth.mul {x y : Float} {p q : ℚ} (hx : Worth x p) (hy : Worth y q)
    (h : |rounded (p * q)| < limit) : Worth (x * y) (rounded (p * q)) :=
  worth_pack (Denotes.mul hx hy) h

/-- A quotient that fits is worth the exact quotient, rounded. -/
theorem Worth.div {x y : Float} {p q : ℚ} (hx : Worth x p) (hy : Worth y q) (hq : q ≠ 0)
    (h : |rounded (p / q)| < limit) : Worth (x / y) (rounded (p / q)) :=
  worth_pack (Denotes.div hx hy hq) h

/-! ### What is not finite -/

/-- Packing does not make anything finite. -/
private theorem isFinite_of_pack {a : UnpackedFloat}
    (h : (Float.Model.pack a).unpack.isFinite = true) : a.isFinite = true := by
  cases a with
  | notANumber => exact Bool.noConfusion h
  | infinity s =>
    rw [unpack_pack_infinity] at h
    exact Bool.noConfusion h
  | zero s => rfl
  | finite s m e hm => rfl

/-- A finite sum has finite summands. -/
private theorem isFinite_of_sum {a b : UnpackedFloat}
    (h : (UnpackedFloat.add .binary64 a b).isFinite = true) :
    a.isFinite = true ∧ b.isFinite = true := by
  -- An infinity stays infinite whatever is added, or becomes no number.
  cases a with
  | notANumber => exact Bool.noConfusion h
  | infinity s =>
    cases b with
    | infinity s' =>
      simp only [UnpackedFloat.add] at h
      split at h <;> exact Bool.noConfusion h
    | _ => exact Bool.noConfusion h
  | zero s =>
    cases b with
    | zero s' => exact ⟨rfl, rfl⟩
    | finite s' m' e' hm' => exact ⟨rfl, rfl⟩
    | _ => exact Bool.noConfusion h
  | finite s m e hm =>
    cases b with
    | zero s' => exact ⟨rfl, rfl⟩
    | finite s' m' e' hm' => exact ⟨rfl, rfl⟩
    | _ => exact Bool.noConfusion h

/-- Only finite numbers have a finite sum. -/
theorem isFinite_of_add {x y : Float} (h : (x + y).isFinite = true) :
    x.isFinite = true ∧ y.isFinite = true :=
  isFinite_of_sum (isFinite_of_pack h)

/-- Only finite numbers have a finite difference. -/
theorem isFinite_of_sub {x y : Float} (h : (x - y).isFinite = true) :
    x.isFinite = true ∧ y.isFinite = true := by
  have hdiff : (UnpackedFloat.sub .binary64 x.toModel.unpack y.toModel.unpack).isFinite = true :=
    isFinite_of_pack h
  -- The opposite number is finite if and only if the number is.
  rw [sub_eq_add_opposite] at hdiff
  obtain ⟨hx, hy⟩ := isFinite_of_sum hdiff
  refine ⟨hx, ?_⟩
  change y.toModel.unpack.isFinite = true
  generalize y.toModel.unpack = b at hy
  cases b <;> first | rfl | exact Bool.noConfusion hy

end Scorecard.Binary64
