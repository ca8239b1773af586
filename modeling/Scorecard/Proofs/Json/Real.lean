import Scorecard.Proofs.Binary64.Scaling
import Scorecard.Proofs.Decimal.Shortest
import Scorecard.Proofs.Json.Numeral

/-!
# Reading binary64 numbers

A binary64 number is written as its shortest decimal, positionally or with an exponent, and read
from it with roundings of its own. What is read need not be the same number, but there always is
one: a decimal with places behind the point is never too great, and one with an exponent lies no
further above the number than half the way to the next one. Only for the greatest number this does
not suffice, and it is read all the same.

* `Json.Numeral.exists_parts`: a decimal in a document is a numeral.
* `Json.Number.exists_readAs_real`: every finite number is read as a number.
-/

namespace Scorecard.Json

open Decimal

/-! ### Decimals -/

namespace Numeral

/-- Digits write a number below the power of ten with their count. -/
private theorem ofDigitChars_lt {ds : List Char} (h : ∀ c ∈ ds, c.isDigit = true) :
    Nat.ofDigitChars 10 ds 0 < 10 ^ ds.length := by
  induction ds with
  | nil => exact Nat.one_pos
  | cons c ds ih =>
    obtain ⟨hc, hds⟩ := List.forall_mem_cons.1 h
    have hdigit : c.toNat - '0'.toNat ≤ 9 := by
      unfold Char.isDigit at hc
      rw [Bool.and_eq_true, decide_eq_true_eq, decide_eq_true_eq] at hc
      exact Nat.sub_le_sub_right (UInt32.le_iff_toNat_le.1 hc.2) _
    have hrest := ih hds
    have hstep := Nat.mul_le_mul_left (10 ^ ds.length) hdigit
    rw [Nat.ofDigitChars_cons, Nat.mul_zero, Nat.zero_add, Nat.ofDigitChars_eq_ofDigitChars_zero,
      List.length_cons, Nat.pow_succ]
    omega

/-- Zeros are digits. -/
private theorem isDigit_zeros (n : Nat) : ∀ c ∈ List.replicate n '0', c.isDigit = true := by
  intro c hc
  rw [(List.mem_replicate.1 hc).2]
  rfl

/-- A decimal with places behind the point is read. -/
private theorem exists_scaled_of_neg (n : Nat) {e : Int} (he : e < 0) :
    ∃ x, scaled n e = some x := by
  cases e with
  | ofNat k => exact absurd he (Int.not_lt.2 (Int.natCast_nonneg k))
  | negSucc k => exact ⟨_, rfl⟩

/-- There is a number for the parts of a numeral, whatever its sign is. -/
def Parts.Readable (p : Parts) : Prop :=
  ∀ negative, ∃ n, number? negative p.whole p.fraction p.exponent = some n

/-- A number with a fraction and without an exponent is never too great. -/
private theorem Parts.readable_of_fraction {p : Parts} {ds : List Char}
    (hfraction : p.fraction = some ds) (hexponent : p.exponent = none)
    (hlt : Nat.ofDigitChars 10 (p.whole ++ ds) 0 < 0x10000000000000000) : p.Readable := by
  intro negative
  have hlength := List.length_pos_iff.2 (p.isDigit_fraction ds hfraction).1
  obtain ⟨x, hx⟩ := exists_scaled_of_neg (Nat.ofDigitChars 10 (p.whole ++ ds) 0)
    (e := (none : Option Int).getD 0 - ds.length) (by rw [Option.getD_none]; omega)
  rw [hfraction, hexponent, number?_fraction hlt, hx]
  exact ⟨_, rfl⟩

/-- A whole number, with a point and a zero behind it. -/
private theorem exists_parts_of_whole {d : Scientific} {k : Nat} (hk : d.exponent = k)
    (hzero : d.digits = 0 → k = 0) (hfirst : (Layout.digits d.digits).length + k ≤ 16) :
    ∃ p : Parts, p.chars = Layout.setPositional true (Layout.digits d.digits) d.exponent ∧
      p.Readable := by
  have hdigits : ∀ c ∈ Layout.digits d.digits ++ List.replicate k '0', c.isDigit = true :=
    List.forall_mem_append.2 ⟨isDigit_digits _, isDigit_zeros k⟩
  have hwhole : isWhole (Layout.digits d.digits ++ List.replicate k '0') = true := by
    rcases Nat.eq_zero_or_pos d.digits with hnil | hpos
    · rw [hzero hnil, List.replicate_zero, List.append_nil]
      exact isWhole_digits _
    · obtain ⟨c, ds, hds, hc⟩ := exists_cons_digits hpos
      rw [hds]
      exact isWhole_cons hc _
  refine ⟨⟨_, some ['0'], none, hdigits, hwhole, ?_⟩, ?_, ?_⟩
  · intro ds hds
    cases hds
    exact ⟨List.cons_ne_nil _ _, isDigit_zeros 1⟩
  · unfold Layout.setPositional Parts.chars
    rw [hk, if_pos (Int.natCast_nonneg k), Int.toNat_natCast]
    exact List.append_nil _
  · refine Parts.readable_of_fraction rfl rfl ?_
    -- There are seventeen digits at most.
    have hlt := ofDigitChars_lt (List.forall_mem_append.2 ⟨hdigits, isDigit_zeros 1⟩)
    rw [List.length_append, List.length_append, List.length_replicate, List.length_replicate] at hlt
    exact hlt.trans_le ((Nat.pow_le_pow_right (by decide) (Nat.succ_le_succ hfirst)).trans
      (by decide : 10 ^ 17 ≤ 0x10000000000000000))

/-- A number with places behind the point. -/
private theorem exists_parts_of_places {d : Scientific} {k : Nat} (hk : d.exponent = -k)
    (hplaces : 0 < k) (hpos : 0 < d.digits) (hlt : d.digits < 0x10000000000000000) :
    ∃ p : Parts, p.chars = Layout.setPositional true (Layout.digits d.digits) d.exponent ∧
      p.Readable := by
  have hvalue : Nat.ofDigitChars 10 (Layout.digits d.digits) 0 = d.digits :=
    Nat.ofDigitChars_ten_toDigits
  unfold Layout.setPositional
  rw [hk, if_neg (by omega), Int.neg_neg, Int.toNat_natCast]
  simp only
  split
  · next hsplit =>
    -- The point stands between the digits.
    obtain ⟨n, hn⟩ : ∃ n, (Layout.digits d.digits).length - k = n + 1 :=
      ⟨(Layout.digits d.digits).length - k - 1, by omega⟩
    have hwhole : isWhole ((Layout.digits d.digits).take (n + 1)) = true := by
      obtain ⟨c, ds, hds, hc⟩ := exists_cons_digits hpos
      rw [hds]
      exact isWhole_cons hc _
    rw [hn]
    refine ⟨⟨_, some ((Layout.digits d.digits).drop (n + 1)), none,
      fun c hc => isDigit_digits _ c (List.mem_of_mem_take hc), hwhole, ?_⟩, ?_, ?_⟩
    · intro ds hds
      cases hds
      refine ⟨fun hnil => ?_, fun c hc => isDigit_digits _ c (List.mem_of_mem_drop hc)⟩
      have := List.drop_eq_nil_iff.1 hnil
      omega
    · exact List.append_nil _
    · refine Parts.readable_of_fraction rfl rfl ?_
      rw [List.take_append_drop, hvalue]
      exact hlt
  · next hsplit =>
    -- All digits stand behind the point.
    set zeros := k - (Layout.digits d.digits).length
    have hfraction : ∀ c ∈ List.replicate zeros '0' ++ Layout.digits d.digits, c.isDigit = true :=
      List.forall_mem_append.2 ⟨isDigit_zeros zeros, isDigit_digits _⟩
    refine ⟨⟨['0'], some (List.replicate zeros '0' ++ Layout.digits d.digits), none,
      List.forall_mem_singleton.2 rfl, rfl, ?_⟩, ?_, ?_⟩
    · intro ds hds
      cases hds
      exact ⟨fun hnil => Nat.toDigits_ne_nil (List.append_eq_nil_iff.1 hnil).2, hfraction⟩
    · exact List.append_nil _
    · refine Parts.readable_of_fraction rfl rfl ?_
      rw [Nat.ofDigitChars_append, Nat.ofDigitChars_append, Nat.ofDigitChars_replicate_zero]
      change Nat.ofDigitChars 10 (Layout.digits d.digits) (10 ^ zeros * 0) < _
      rw [Nat.mul_zero, hvalue]
      exact hlt

/-- A number with an exponent. -/
private theorem exists_parts_of_scientific {d : Scientific} (hpos : 0 < d.digits)
    (hlt : d.digits < 0x10000000000000000) (hread : ∃ x, scaled d.digits d.exponent = some x) :
    ∃ p : Parts, p.chars = Layout.setScientific (Layout.digits d.digits) d.exponent ∧
      p.Readable := by
  have hvalue : Nat.ofDigitChars 10 (Layout.digits d.digits) 0 = d.digits :=
    Nat.ofDigitChars_ten_toDigits
  have hdigits := isDigit_digits d.digits
  obtain ⟨x, hx⟩ := hread
  obtain ⟨c, ds, hds, hc⟩ := exists_cons_digits hpos
  rw [hds] at hvalue hdigits ⊢
  have hwhole : ∀ c' ∈ [c], c'.isDigit = true :=
    List.forall_mem_singleton.2 (hdigits c List.mem_cons_self)
  cases ds with
  | nil =>
    refine ⟨⟨[c], none, some d.exponent, hwhole, isWhole_cons hc [],
      fun _ hnone => absurd hnone (Option.not_mem_none _)⟩, ?_, fun negative => ?_⟩
    · have hexponent : d.exponent + (([c].length - 1 : Nat) : Int) = d.exponent := Int.add_zero _
      unfold Layout.setScientific
      simp only
      rw [hexponent]
      rfl
    · simp only
      rw [number?_exponent (by rw [hvalue]; exact hlt), hvalue, hx]
      exact ⟨_, rfl⟩
  | cons c' ds =>
    refine ⟨⟨[c], some (c' :: ds), some (d.exponent + ((c' :: ds).length : Nat)), hwhole,
      isWhole_cons hc [], ?_⟩, rfl, fun negative => ?_⟩
    · intro ds' hds'
      cases hds'
      exact ⟨List.cons_ne_nil _ _, fun c hc => hdigits c (List.mem_cons_of_mem _ hc)⟩
    · have hdigits : [c] ++ c' :: ds = c :: c' :: ds := rfl
      simp only
      rw [number?_fraction (by rw [hdigits, hvalue]; exact hlt), hdigits, hvalue,
        Option.getD_some, Int.add_sub_cancel, hx]
      exact ⟨_, rfl⟩

/-- The layout of data is positional for zero and where the first digit stands at a power from -5 to
15, and scientific otherwise. -/
private theorem setDecimal_data (d : Scientific) :
    Layout.data.setDecimal d
      = if d.digits = 0 ∨ -5 ≤ d.exponent + ((Layout.digits d.digits).length - 1 : Nat) ∧
            d.exponent + ((Layout.digits d.digits).length - 1 : Nat) ≤ 15 then
          Layout.setPositional true (Layout.digits d.digits) d.exponent
        else Layout.setScientific (Layout.digits d.digits) d.exponent := by
  change (if decide _ = true then _ else _) = _
  split
  · next hdecided => exact (if_pos (of_decide_eq_true hdecided)).symm
  · next hdecided => exact (if_neg fun h => hdecided (decide_eq_true h)).symm

/-- A decimal in a document is a numeral, and a number is read of it if one is read of its digits
with the power of ten. -/
theorem exists_parts {d : Scientific} (hlt : d.digits < 0x10000000000000000)
    (hzero : d.digits = 0 → d.exponent = 0) (hread : ∃ x, scaled d.digits d.exponent = some x) :
    ∃ p : Parts, p.chars = Layout.data.setDecimal d ∧ p.Readable := by
  rw [setDecimal_data]
  split
  · next hpositional =>
    have hlength : 0 < (Layout.digits d.digits).length := List.length_pos_iff.2 Nat.toDigits_ne_nil
    rcases lt_or_ge d.exponent 0 with hneg | hnonneg
    · have hpos : 0 < d.digits := by
        rcases Nat.eq_zero_or_pos d.digits with hnil | hpos
        · exact absurd (hzero hnil) (Int.ne_of_lt hneg)
        · exact hpos
      exact exists_parts_of_places (k := d.exponent.natAbs) (by omega) (by omega) hpos hlt
    · refine exists_parts_of_whole (k := d.exponent.natAbs) (by omega) (fun hnil => ?_) ?_
      · rw [hzero hnil]
        rfl
      · rcases hpositional with hnil | ⟨-, hfirst⟩
        · rw [hzero hnil, hnil]
          decide
        · omega
  · next hscientific =>
    have hpos : 0 < d.digits := Nat.pos_of_ne_zero fun hnil => hscientific (.inl hnil)
    exact exists_parts_of_scientific hpos hlt hread

end Numeral

/-! ### Binary64 numbers -/

/-- Half the way from a number to the next one is no nearer to the greatest number than to the one
below it, unless the number is the greatest one itself. -/
private theorem half_next_le_ceiling {m : ℕ} (hm : m < 2 ^ 53) {q : ℤ} (hq : q ≤ 971)
    (hne : ¬ (m = 2 ^ 53 - 1 ∧ q = 971)) :
    ((m : ℚ) + 1 / 2) * 2 ^ q ≤ Binary64.ceiling := by
  rw [Binary64.cast_ceiling]
  rcases eq_or_lt_of_le hq with rfl | hlt
  · have hle : m + 2 ≤ 2 ^ 53 := by omega
    have hle' : (m : ℚ) + 2 ≤ 2 ^ 53 := by exact_mod_cast hle
    rw [show (971 : ℤ) = 1 + 970 by norm_num, zpow_add₀ two_ne_zero, zpow_one, ← mul_assoc]
    apply mul_le_mul_of_nonneg_right _ (Binary64.two_zpow_pos _).le
    push_cast
    norm_num at hle' ⊢
    linarith
  · have hle : (m : ℚ) + 1 ≤ 2 ^ 53 := by exact_mod_cast hm
    apply mul_le_mul _ (zpow_le_zpow_right₀ one_le_two (by omega)) (Binary64.two_zpow_pos _).le
      (Nat.cast_nonneg _)
    norm_num at hle ⊢
    linarith

/-- Of the shortest decimal of a number a number is read. -/
private theorem exists_scaled_shortest {m : ℕ} (hm : 0 < m) (hm' : m < 2 ^ 53) {q : ℤ}
    (hq : -1074 ≤ q) (hq' : q ≤ 971) :
    ∃ x, scaled (shortest .even m q).digits (shortest .even m q).exponent = some x := by
  by_cases hgreatest : m = 2 ^ 53 - 1 ∧ q = 971
  · -- The greatest number lies above the ceiling and is read all the same.
    obtain ⟨rfl, rfl⟩ := hgreatest
    have hread : (scaled (shortest .even (2 ^ 53 - 1) 971).digits
        (shortest .even (2 ^ 53 - 1) 971).exponent).isSome = true := by
      decide +kernel
    exact Option.isSome_iff_exists.1 hread
  · obtain ⟨hpos, hlt, hle⟩ := shortest_spec .even hm hm' hq hq'
    exact exists_scaled hpos hlt (hle.trans (half_next_le_ceiling hm' hq' hgreatest))

/-- Every finite number is read as a number. -/
theorem Number.exists_readAs_real {x : Float} (h : x.isFinite = true) :
    ∃ n, (Number.real x).ReadAs n := by
  obtain ⟨negative, m, e, hparts, hm, he, he'⟩ := Binary.exists_finite h
  have hwrite {p : Numeral.Parts} (hp : p.chars = Layout.data.setDecimal (shortest .even m e)) :
      (Number.real x).write = Numeral.signChars negative p.chars := by
    rw [Number.write, if_pos h]
    unfold Layout.write
    rw [hparts]
    simp only
    rw [String.toList_ofList, hp]
    rfl
  obtain ⟨p, hp, hread⟩ : ∃ p : Numeral.Parts,
      p.chars = Layout.data.setDecimal (shortest .even m e) ∧ p.Readable := by
    rcases Nat.eq_zero_or_pos m with rfl | hpos
    · have hread : (scaled 0 0).isSome = true := by decide +kernel
      exact Numeral.exists_parts (d := shortest .even 0 e)
        (show 0 < 0x10000000000000000 by decide) (fun _ => rfl)
        (Option.isSome_iff_exists.1 hread)
    · obtain ⟨hdigits, hlt, -⟩ := shortest_spec .even hpos hm he he'
      exact Numeral.exists_parts hlt (fun hnil => absurd hnil (Nat.ne_of_gt hdigits))
        (exists_scaled_shortest hpos hm he he')
  obtain ⟨n, hn⟩ := hread negative
  refine ⟨n, fun rest hrest => ?_⟩
  rw [hwrite hp, p.scan_chars negative hrest, hn]

end Scorecard.Json
