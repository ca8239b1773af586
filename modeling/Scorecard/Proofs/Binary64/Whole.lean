import Scorecard.Decimal.Binary
import Scorecard.Proofs.Binary64.Order

/-!
# Whole numbers

A whole number of at most 53 bits is a binary64 number, and a greater one is rounded. A number that
is not whole is rounded to one on its parts, which are read off its bits.

* `worth_ofNat`, `worth_toFloat`: what natural numbers and counts are worth.
* `Decimal.Binary.ofFloat_eq`: the parts of a number.
* `worth_round`: the nearest whole number, a half going up.
-/

namespace Scorecard.Binary64

open Float.Model Float.Model.UnpackedFloat

/-! ### Numbers that fit -/

/-- A number that is far from the limit stays below it when it is rounded. -/
theorem abs_rounded_lt {q : ℚ} (h : |q| ≤ 2 ^ (1000 : ℤ)) : |rounded q| < limit := by
  obtain ⟨hlow, hhigh⟩ := abs_le.1 h
  have hself : rounded (2 ^ (1000 : ℤ)) = 2 ^ (1000 : ℤ) := by
    have := rounded_eq_self (m := 1) (e := 1000) (by norm_num) (by norm_num)
    rwa [Int.cast_one, one_mul] at this
  have hle := rounded_mono hhigh
  have hge := rounded_mono hlow
  rw [rounded_neg] at hge
  rw [hself] at hle hge
  have hlimit : (2 : ℚ) ^ (1000 : ℤ) < limit := zpow_lt_zpow_right₀ one_lt_two (by norm_num)
  exact (abs_le.2 ⟨hge, hle⟩).trans_lt hlimit

/-- Numbers below a thousand bits fit. -/
theorem abs_rounded_lt_of_nat {q : ℚ} {n : ℕ} (h0 : 0 ≤ q) (h : q ≤ n) (hn : n ≤ 2 ^ 64) :
    |rounded q| < limit := by
  apply abs_rounded_lt
  rw [abs_of_nonneg h0]
  calc q ≤ n := h
    _ ≤ 2 ^ (64 : ℤ) := by exact_mod_cast hn
    _ ≤ 2 ^ (1000 : ℤ) := zpow_le_zpow_right₀ one_le_two (by norm_num)

theorem rounded_natCast {n : ℕ} (h : n < 2 ^ 53) : rounded n = n := by
  have := rounded_eq_self (m := n) (e := 0) (by rw [Nat.abs_cast]; exact_mod_cast h) (by norm_num)
  rw [zpow_zero, mul_one] at this
  exact_mod_cast this

theorem rounded_one : rounded 1 = 1 := by
  have := rounded_natCast (n := 1) (by norm_num)
  rwa [Nat.cast_one] at this

/-! ### Counts and natural numbers -/

/-- A count is rounded. -/
theorem worth_toFloat (n : UInt64) : Worth n.toFloat (rounded n.toNat) := by
  have hdenotes := denotes_normalize n.toNat 0
  rw [zpow_zero, mul_one, Int.cast_natCast] at hdenotes
  have hfits : |rounded (n.toNat : ℚ)| < limit :=
    abs_rounded_lt_of_nat (Nat.cast_nonneg _) le_rfl n.toNat_lt.le
  have hpack := hdenotes.unpack_pack hfits
  change Denotes (Float.Model.pack (UnpackedFloat.normalize .binary64 n.toNat 0 .positive)).unpack _
  rwa [hpack]

/-- These bits are those of one. -/
private theorem worth_ofBits_one : Worth (Float.ofBits 0x3FF0000000000000) 1 := by
  have hunpack : (Float.ofBits 0x3FF0000000000000).toModel.unpack
      = .finite .positive (2 ^ 52) (-52) (by decide) := rfl
  have hvalue : factor .positive * (((2 ^ 52 : ℕ) : ℚ) * 2 ^ (-52 : ℤ)) = 1 := by
    norm_num [factor]
  unfold Worth
  rw [hunpack, ← hvalue]
  exact .finite .positive _ ⟨by norm_num, by norm_num, .inl le_rfl⟩

/-- A natural number of at most 53 bits is a number. -/
theorem worth_ofNat {n : ℕ} (h : n < 2 ^ 53) : Worth (Float.ofNat n) n := by
  have hcount := worth_toFloat n.toUInt64
  have hn : n.toUInt64.toNat = n := Nat.mod_eq_of_lt (h.trans (by norm_num))
  rw [hn, rounded_natCast h] at hcount
  -- The number is multiplied by the power of ten with the exponent zero.
  have hproduct : Float.ofNat n = n.toUInt64.toFloat * Float.ofBits 0x3FF0000000000000 := by
    have hfast : n < 2 ^ 53 ∧ 0 ≤ 22 := ⟨h, Nat.zero_le _⟩
    change Float.ofScientific n false 0 = _
    unfold Float.ofScientific
    rw [dif_pos hfast]
    rfl
  have hworth := hcount.mul worth_ofBits_one (by
    rw [mul_one, rounded_natCast h]
    exact hcount.abs_lt)
  rw [mul_one, rounded_natCast h] at hworth
  rwa [hproduct]

/-- A natural number that is written out. -/
theorem worth_literal (n : ℕ) (h : n < 2 ^ 53 := by norm_num) : Worth (OfNat.ofNat n) n :=
  worth_ofNat h

theorem Worth.neg {x : Float} {q : ℚ} (h : Worth x q) : Worth (-x) (-q) := by
  have hneg := Denotes.neg h
  have hlt : |-q| < limit := by
    rw [abs_neg]
    exact h.abs_lt
  change Denotes (Float.Model.pack (UnpackedFloat.neg x.toModel.unpack)).unpack _
  rwa [hneg.unpack_pack hlt]

end Scorecard.Binary64

namespace Scorecard.Decimal.Binary

open Float.Model Float.Model.UnpackedFloat

/-- The parts of a number taken apart. -/
def ofUnpacked : UnpackedFloat → Binary
  | .notANumber => .nan
  | .infinity s => .infinite (s == .negative)
  | .zero s => .finite (s == .negative) 0 (-1074)
  | .finite s m e _ => .finite (s == .negative) m e

/-- The mantissa is in the low bits. -/
private theorem toNat_unpackMantissa (b : BitVec 64) :
    (@unpackMantissa .binary64 b).toNat = b.toNat % leadingBit := by
  simp only [unpackMantissa, BitVec.toNat_cast, BitVec.extractLsb_toNat]
  rfl

/-- The exponent is in the bits above the mantissa. -/
private theorem toNat_unpackExponent (b : BitVec 64) :
    (@unpackExponent .binary64 b).toNat = b.toNat / leadingBit % 0x800 := by
  simp only [unpackExponent, BitVec.toNat_cast, BitVec.extractLsb_toNat, Nat.shiftRight_eq_div_pow]
  rfl

/-- The first bit is set in the second half of all bit patterns. -/
private theorem ofBitVec_unpackSign (b : BitVec 64) :
    (Sign.ofBitVec (@unpackSign .binary64 b) == .negative)
      = decide (0x8000000000000000 ≤ b.toNat) := by
  have hbit : (@unpackSign .binary64 b).toNat = b.toNat / 2 ^ 63 % 2 := by
    simp only [unpackSign, BitVec.toNat_cast, BitVec.extractLsb_toNat, Nat.shiftRight_eq_div_pow]
  have hsign (v : BitVec 1) : (Sign.ofBitVec v == .negative) = decide (v.toNat = 1) := by
    revert v
    decide
  have hlt := b.isLt
  rw [hsign, decide_eq_decide, hbit]
  omega

/-- The parts that are read off the bits of a number are those of the number taken apart. -/
theorem ofFloat_eq (x : Float) : ofFloat x = ofUnpacked x.toModel.unpack := by
  change ofBits x.toModel.toBits.toBitVec.toNat
    = ofUnpacked (UnpackedFloat.unpack .binary64 x.toModel.toBits.toBitVec)
  generalize x.toModel.toBits.toBitVec = b
  have hoffset : (Format.exponentBias .binary64 : ℤ) + (52 : ℕ) = 1075 := by decide
  have hm := toNat_unpackMantissa b
  have he := toNat_unpackExponent b
  have hs := ofBitVec_unpackSign b
  simp only [ofBits, UnpackedFloat.unpack]
  rw [← hm, ← he, ← hs]
  set m : BitVec 52 := @unpackMantissa .binary64 b
  set e : BitVec 11 := @unpackExponent .binary64 b
  set s := Sign.ofBitVec (@unpackSign .binary64 b)
  have hones : e = -1#11 ↔ e.toNat = 2047 := by
    rw [BitVec.toNat_eq]
    rfl
  have hlow : e = 0#11 ↔ e.toNat = 0 := BitVec.toNat_eq
  have hzero : m = 0#52 ↔ m.toNat = 0 := BitVec.toNat_eq
  rw [hoffset]
  by_cases hinf : e.toNat = 2047
  · -- infinity, or no number at all
    rw [if_pos hinf, if_pos (hones.2 hinf)]
    by_cases hmant : m.toNat = 0
    · rw [if_pos hmant, if_pos (hzero.2 hmant)]
      rfl
    · rw [if_neg hmant, if_neg (mt hzero.1 hmant)]
      rfl
  · rw [if_neg hinf, if_neg (mt hones.1 hinf)]
    by_cases hexp : e.toNat = 0
    · rw [if_pos hexp, if_pos (hlow.2 hexp), hexp]
      by_cases hmant : m.toNat = 0
      · rw [dif_pos (hzero.2 hmant), hmant]
        rfl
      · rw [dif_neg (mt hzero.1 hmant)]
        rfl
    · have hfull : leadingBit + m.toNat = (1#1 ++ m).toNat :=
        (Binary64.toNat_fullMantissa m).symm
      rw [if_neg hexp, if_neg (mt hlow.1 hexp), hfull]
      rfl

/-- The parts of a finite number. -/
theorem exists_finite {x : Float} (h : x.isFinite = true) :
    ∃ negative m e, ofFloat x = .finite negative m e ∧ m < 2 ^ 53 ∧ -1074 ≤ e ∧ e ≤ 971 := by
  obtain ⟨q, hworth, hlt⟩ := Binary64.exists_worth h
  change Binary64.Denotes x.toModel.unpack q at hworth
  rw [ofFloat_eq]
  generalize x.toModel.unpack = u at hworth
  cases hworth with
  | zero s => exact ⟨_, 0, -1074, rfl, by norm_num, le_rfl, by norm_num⟩
  | finite s hm hcanonical =>
    rw [Binary64.abs_factor_mul] at hlt
    exact ⟨_, _, _, rfl, hcanonical.lt, hcanonical.le, hcanonical.lt_limit_iff.1 hlt⟩

/-- A quotient is rounded by adding a half and leaving out the fraction. -/
theorem nearestUp_eq_floor (m : ℕ) {d : ℕ} (hd : 0 < d) :
    (nearestUp m d : ℤ) = ⌊(m : ℚ) / d + 1 / 2⌋ := by
  have hd' : (d : ℚ) ≠ 0 := by exact_mod_cast hd.ne'
  have hsum : (m : ℚ) / d + 1 / 2 = ((2 * m + d : ℕ) : ℚ) / ((2 * d : ℕ) : ℚ) := by
    push_cast
    field_simp
  rw [hsum, nearestUp]
  exact (Rat.floor_natCast_div_natCast _ _).symm

end Scorecard.Decimal.Binary

namespace Scorecard.Binary64

open Float.Model Decimal

/-- What is rounded of a number that is not whole; only a zero has a sign here. -/
private theorem worth_signed_nearestUp (negative : Bool) {m : ℕ} {e : ℤ} (hm : m < 2 ^ 53)
    (hsign : negative = true → m = 0) (he : e < 0) :
    Worth (Binary.signed negative (Float.ofNat (Binary.nearestUp m (Nat.pow 2 e.natAbs))))
      ⌊(m : ℚ) * 2 ^ e + 1 / 2⌋ := by
  set d := Nat.pow 2 e.natAbs with hd
  have hd2 : 2 ≤ d := Nat.le_self_pow (by omega) 2
  have hlt : Binary.nearestUp m d < 2 ^ 53 := by
    unfold Binary.nearestUp
    rw [Nat.div_lt_iff_lt_mul (by omega)]
    omega
  have hvalue : (m : ℚ) * 2 ^ e = m / (d : ℕ) := by
    have hexp : e = -(e.natAbs : ℤ) := by omega
    have hpow : (d : ℚ) = 2 ^ e.natAbs := by
      rw [hd]
      exact Nat.cast_pow 2 e.natAbs
    rw [hpow, div_eq_mul_inv, ← zpow_natCast, ← zpow_neg, ← hexp]
  rw [hvalue, ← Binary.nearestUp_eq_floor m (by omega), Int.cast_natCast]
  have hnat := worth_ofNat hlt
  cases negative with
  | false => exact hnat
  | true =>
    -- The other sign makes no difference to a zero.
    have hzero : Binary.nearestUp m d = 0 := by
      rw [hsign rfl]
      exact Nat.div_eq_of_lt (by omega)
    rw [hzero, Nat.cast_zero] at hnat ⊢
    have hneg := hnat.neg
    rwa [neg_zero] at hneg

/-- A number that is not below zero is rounded to the nearest whole number, a half going up. -/
theorem worth_round {x : Float} {q : ℚ} (hx : Worth x q) (hq : 0 ≤ q) :
    Worth (Binary.round x) ⌊q + 1 / 2⌋ := by
  have hparts : Denotes x.toModel.unpack q := hx
  unfold Binary.round
  rw [Binary.ofFloat_eq]
  generalize x.toModel.unpack = u at hparts
  cases hparts with
  | zero s =>
    have hround := worth_signed_nearestUp (s == .negative) (m := 0) (e := -1074)
      (by norm_num) (fun _ => rfl) (by norm_num)
    rw [Nat.cast_zero, zero_mul] at hround
    exact hround
  | finite s hm h =>
    rename_i m e
    have hpos : (0 : ℚ) < m * 2 ^ e := mul_pos (by exact_mod_cast hm) (two_zpow_pos e)
    cases s with
    | negative =>
      rw [factor, neg_one_mul] at hq
      linarith
    | positive =>
      rw [factor, one_mul] at hx ⊢
      simp only [Binary.ofUnpacked]
      by_cases he : 0 ≤ e
      · -- A number with no places behind the point is whole.
        obtain ⟨n, rfl⟩ := Int.eq_ofNat_of_zero_le he
        have hwhole : (m : ℚ) * 2 ^ (n : ℤ) = ((m * 2 ^ n : ℕ) : ℤ) := by
          push_cast
          rw [zpow_natCast]
        have hfloor : ⌊(m : ℚ) * 2 ^ (n : ℤ) + 1 / 2⌋ = ((m * 2 ^ n : ℕ) : ℤ) := by
          rw [hwhole, Int.floor_eq_iff]
          constructor <;> linarith
        rw [if_pos he, hfloor, ← hwhole]
        exact hx
      · rw [if_neg he]
        exact worth_signed_nearestUp false h.lt (fun hs => Bool.noConfusion hs) (by omega)

end Scorecard.Binary64
