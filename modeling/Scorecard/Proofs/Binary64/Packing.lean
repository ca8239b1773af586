import Scorecard.Proofs.Binary64.Operations

/-!
# Packing numbers

A number is kept in 64 bits. What is taken out of them is in canonical form; what is put into
them comes out again, as long as it is smaller than `2 ^ 1024`. Greater numbers become infinity.

* `denotes_unpack`: a finite number stands for a rational number smaller than `limit`.
* `Denotes.unpack_pack`: a number that fits is not changed by packing.
* `Denotes.isFinite_pack`: a number fits if and only if it is smaller than `limit`.
-/

namespace Scorecard.Binary64

open Float.Model Float.Model.UnpackedFloat

/-! ### Bits -/

/-- The sign bit is found where it has been put. -/
private theorem unpackSign_packComponents (s : Sign) (e : BitVec 11) (m : BitVec 52) :
    unpackSign (packComponents .binary64 s e m) = s.toBitVec := by
  -- The sign is the first of the 64 bits.
  have hfirst : (s.toBitVec ++ e ++ m).getLsbD 63 = s.toBitVec.getLsbD 0 := by
    rw [BitVec.getLsbD_append, BitVec.getLsbD_append]
    rfl
  apply BitVec.eq_of_getLsbD_eq
  intro i hi
  have hi : i = 0 := by omega
  subst hi
  rw [← hfirst]
  simp only [unpackSign, packComponents, BitVec.getLsbD_cast, BitVec.getLsbD_extract]
  rfl

/-- A sign is read back from its bit. -/
private theorem ofBitVec_toBitVec (s : Sign) : Sign.ofBitVec s.toBitVec = s := by
  cases s <;> rfl

/-- The first bit of a full mantissa is not kept. -/
theorem toNat_fullMantissa (m : BitVec 52) : (1#1 ++ m).toNat = 2 ^ 52 + m.toNat := by
  rw [BitVec.toNat_append, ← Nat.shiftLeft_add_eq_or_of_lt m.isLt]
  rfl

/-! ### The size of a number -/

/-- The numbers from here on do not fit. -/
def limit : ℚ := 2 ^ (1024 : ℤ)

/-- A number in canonical form fits if and only if its exponent does. -/
theorem IsCanonical.lt_limit_iff {m : ℕ} {e : ℤ} (h : IsCanonical m e) :
    (m : ℚ) * 2 ^ e < limit ↔ e ≤ 971 := by
  constructor
  · intro hlt
    by_contra hgt
    have hfull : 2 ^ 52 ≤ m := h.full.resolve_right (by omega)
    have hle : limit ≤ m * 2 ^ e := by
      calc limit = 2 ^ (((52 : ℕ) : ℤ) + 972) := rfl
        _ = 2 ^ 52 * 2 ^ (972 : ℤ) := two_zpow_add 52 972
        _ ≤ (m : ℚ) * 2 ^ e := by
          apply mul_le_mul (by exact_mod_cast hfull) _ (two_zpow_pos 972).le (by positivity)
          exact zpow_le_zpow_right₀ one_le_two (by omega)
    exact absurd hlt (not_lt.2 hle)
  · intro he
    calc (m : ℚ) * 2 ^ e < 2 ^ 53 * 2 ^ e := by
          apply mul_lt_mul_of_pos_right _ (two_zpow_pos e)
          exact_mod_cast h.lt
      _ ≤ 2 ^ 53 * 2 ^ (971 : ℤ) := by
          apply mul_le_mul_of_nonneg_left _ (by positivity)
          exact zpow_le_zpow_right₀ one_le_two he
      _ = 2 ^ (((53 : ℕ) : ℤ) + 971) := (two_zpow_add 53 971).symm
      _ = limit := rfl

theorem limit_pos : 0 < limit := two_zpow_pos 1024

theorem abs_factor_mul (s : Sign) (m : ℕ) (e : ℤ) :
    |factor s * (m * 2 ^ e)| = m * 2 ^ e := by
  have h : (0 : ℚ) ≤ m * 2 ^ e := mul_nonneg (Nat.cast_nonneg m) (two_zpow_pos e).le
  cases s
  · rw [factor, neg_one_mul, abs_neg, abs_of_nonneg h]
  · rw [factor, one_mul, abs_of_nonneg h]

/-! ### Packing -/

/-- The exponent field of a number. -/
private theorem toNat_exponent {e : ℤ} {b : ℕ} (hb : e + 1075 = b) :
    (e + (Format.exponentBias .binary64 : ℕ) + (52 : ℕ)).toNat = b := by
  have : Format.exponentBias .binary64 = 1023 := by decide
  omega

/-- Fewer bits than 53 are kept as they are, with the exponent field zero. -/
private theorem unpack_pack_small (s : Sign) {m : ℕ} (hm : 0 < m) (hsmall : m < 2 ^ 52) :
    (Float.Model.pack (.finite s m (-1074) hm)).unpack = .finite s m (-1074) hm := by
  have hlog : m.log2 < 52 := (Nat.log2_lt hm.ne').2 hsmall
  have hmantissa : (BitVec.ofNat 52 m).toNat = m := by
    rw [BitVec.toNat_ofNat, Nat.mod_eq_of_lt hsmall]
  have hne : BitVec.ofNat 52 m ≠ 0#52 := by
    intro h
    rw [h] at hmantissa
    exact hm.ne hmantissa
  have hbits : Format.mantissaBits .binary64 = 53 := by decide
  change UnpackedFloat.unpack .binary64 (UnpackedFloat.pack .binary64 _) = _
  simp only [UnpackedFloat.pack, toNat_exponent (e := -1074) (b := 1) rfl]
  rw [if_neg (by decide), if_neg (by omega)]
  simp only [UnpackedFloat.unpack, unpackMantissa_packComponents, unpackExponent_packComponents,
    unpackSign_packComponents, ofBitVec_toBitVec]
  rw [if_neg (by decide), if_pos trivial, dif_neg hne]
  congr 1

/-- The first of 53 bits is not kept; that the exponent field is not zero tells of it. -/
private theorem unpack_pack_full (s : Sign) {m : ℕ} {e : ℤ} (hm : 0 < m) (hlarge : 2 ^ 52 ≤ m)
    (hlt : m < 2 ^ 53) (hlow : -1074 ≤ e) (he : e ≤ 971) :
    (Float.Model.pack (.finite s m e hm)).unpack = .finite s m e hm := by
  obtain ⟨b, hb⟩ : ∃ b : ℕ, e + 1075 = b := ⟨(e + 1075).toNat, by omega⟩
  have hlog : m.log2 = 52 := (Nat.log2_eq_iff hm.ne').2 ⟨hlarge, hlt⟩
  have hmantissa : (BitVec.ofNat 52 m).toNat = m - 2 ^ 52 := by
    rw [BitVec.toNat_ofNat]
    omega
  have hexponent : (BitVec.ofNat 11 b).toNat = b := by
    rw [BitVec.toNat_ofNat, Nat.mod_eq_of_lt (by omega)]
  -- Neither of the two fields that mean something else comes out.
  have hne : BitVec.ofNat 11 b ≠ -1#11 := by
    intro h
    have hones : (-1 : BitVec 11).toNat = 2047 := by decide
    rw [h] at hexponent
    have := hones.symm.trans hexponent
    omega
  have hpos : BitVec.ofNat 11 b ≠ 0#11 := by
    intro h
    rw [h] at hexponent
    have : b = 0 := hexponent.symm
    omega
  have hbits : Format.mantissaBits .binary64 = 53 := by decide
  have hoffset : (Format.exponentBias .binary64 : ℤ) + (52 : ℕ) = 1075 := by decide
  change UnpackedFloat.unpack .binary64 (UnpackedFloat.pack .binary64 _) = _
  simp only [UnpackedFloat.pack, toNat_exponent hb]
  rw [if_neg (by omega), if_pos (by omega)]
  simp only [UnpackedFloat.unpack, unpackMantissa_packComponents, unpackExponent_packComponents,
    unpackSign_packComponents, ofBitVec_toBitVec]
  rw [if_neg hne, if_neg hpos]
  congr 1
  · rw [toNat_fullMantissa, hmantissa]
    omega
  · rw [hexponent, hoffset]
    omega

/-- A number in canonical form whose exponent fits is not changed by packing. -/
private theorem unpack_pack_finite (s : Sign) {m : ℕ} {e : ℤ} (hm : 0 < m) (h : IsCanonical m e)
    (he : e ≤ 971) : (Float.Model.pack (.finite s m e hm)).unpack = .finite s m e hm := by
  rcases Nat.lt_or_ge m (2 ^ 52) with hsmall | hlarge
  · obtain rfl := h.full.resolve_left (by omega)
    exact unpack_pack_small s hm hsmall
  · exact unpack_pack_full s hm hlarge h.lt h.le he

/-- A number in canonical form whose exponent does not fit becomes infinity. -/
private theorem unpack_pack_large (s : Sign) {m : ℕ} {e : ℤ} (hm : 0 < m) (he : 971 < e) :
    (Float.Model.pack (.finite s m e hm)).unpack = .infinity s := by
  have hbias : 2 ^ 11 ≤ (e + (Format.exponentBias .binary64 : ℕ) + (52 : ℕ)).toNat + 1 := by
    have : Format.exponentBias .binary64 = 1023 := by decide
    omega
  change UnpackedFloat.unpack .binary64 (UnpackedFloat.pack .binary64 _) = _
  simp only [UnpackedFloat.pack]
  rw [if_pos hbias]
  cases s <;> rfl

theorem unpack_pack_zero (s : Sign) : (Float.Model.pack (.zero s)).unpack = .zero s := by
  cases s <;> rfl

theorem unpack_pack_infinity (s : Sign) :
    (Float.Model.pack (.infinity s)).unpack = .infinity s := by
  cases s <;> rfl

/-- A number that fits is not changed by packing. -/
theorem Denotes.unpack_pack {a : UnpackedFloat} {p : ℚ} (ha : Denotes a p)
    (hp : |p| < limit) : (Float.Model.pack a).unpack = a := by
  cases ha with
  | zero s => exact unpack_pack_zero s
  | finite s hm h =>
    rw [abs_factor_mul] at hp
    exact unpack_pack_finite s hm h (h.lt_limit_iff.1 hp)

/-- A number fits if and only if it is smaller than `limit`. -/
theorem Denotes.isFinite_pack {a : UnpackedFloat} {p : ℚ} (ha : Denotes a p) :
    (Float.Model.pack a).unpack.isFinite = true ↔ |p| < limit := by
  constructor
  · intro hfinite
    by_contra hp
    cases ha with
    | zero s => exact hp (by rw [abs_zero]; exact limit_pos)
    | finite s hm h =>
      rw [abs_factor_mul, h.lt_limit_iff, not_le] at hp
      rw [unpack_pack_large s hm hp] at hfinite
      exact Bool.noConfusion hfinite
  · intro hp
    rw [ha.unpack_pack hp]
    cases ha <;> rfl

/-- A number that does not fit becomes the infinity of its sign. -/
theorem Denotes.unpack_pack_of_limit_le {a : UnpackedFloat} {p : ℚ} (ha : Denotes a p)
    (hp : limit ≤ |p|) : ∃ s, (Float.Model.pack a).unpack = .infinity s ∧ p = factor s * |p| := by
  cases ha with
  | zero s => exact absurd hp (by rw [abs_zero]; exact not_le.2 limit_pos)
  | finite s hm h =>
    rw [abs_factor_mul] at hp ⊢
    have he := lt_of_not_ge fun he => not_lt.2 hp (h.lt_limit_iff.2 he)
    exact ⟨s, unpack_pack_large s hm he, rfl⟩

/-- A finite number stands for a rational number smaller than `limit`. -/
theorem denotes_unpack (f : Float.Model) (h : f.unpack.isFinite = true) :
    ∃ p, Denotes f.unpack p ∧ |p| < limit := by
  change (UnpackedFloat.unpack .binary64 f.toBits.toBitVec).isFinite = true at h
  change ∃ p, Denotes (UnpackedFloat.unpack .binary64 f.toBits.toBitVec) p ∧ _
  have hoffset : (Format.exponentBias .binary64 : ℤ) + (52 : ℕ) = 1075 := by decide
  simp only [UnpackedFloat.unpack] at h ⊢
  set m : BitVec 52 := @unpackMantissa .binary64 f.toBits.toBitVec
  set e : BitVec 11 := @unpackExponent .binary64 f.toBits.toBitVec
  set s := Sign.ofBitVec (@unpackSign .binary64 f.toBits.toBitVec)
  rw [hoffset] at h ⊢
  split at h
  · -- infinity, or no number at all
    split at h <;> exact Bool.noConfusion h
  · next hfinite =>
    rw [if_neg hfinite]
    -- The exponent field is not the one kept for infinity and what is no number.
    have hexp : e.toNat ≠ 2047 := by
      intro h
      exact hfinite (BitVec.eq_of_toNat_eq (h.trans (by decide)))
    split
    · next hlowest =>
      split
      · exact ⟨0, .zero s, by rw [abs_zero]; exact limit_pos⟩
      · next hne =>
        have hpos : 0 < m.toNat := by
          rcases Nat.eq_zero_or_pos m.toNat with h0 | hpos
          · exact absurd (BitVec.eq_of_toNat_eq h0) hne
          · exact hpos
        have hcanonical : IsCanonical m.toNat ((e.toNat : ℤ) - 1075 + 1) := by
          rw [hlowest]
          exact ⟨m.isLt.trans (by norm_num), by decide, .inr (by decide)⟩
        refine ⟨_, .finite s hpos hcanonical, ?_⟩
        rw [abs_factor_mul, hcanonical.lt_limit_iff, hlowest]
        decide
    · next hnormal =>
      have hexp0 : e.toNat ≠ 0 := fun h => hnormal (BitVec.eq_of_toNat_eq h)
      have hcanonical : IsCanonical (1#1 ++ m).toNat ((e.toNat : ℤ) - 1075) := by
        rw [toNat_fullMantissa]
        have := m.isLt
        exact ⟨by omega, by omega, .inl (by omega)⟩
      refine ⟨_, .finite s _ hcanonical, ?_⟩
      rw [abs_factor_mul, hcanonical.lt_limit_iff]
      have := e.isLt
      omega

end Scorecard.Binary64
