import Mathlib
import Scorecard.Text.Basic

/-!
# Normal forms of tags

Taking the normal form of a tag twice is the same as taking it once, so that a tag in normal form
is the only one among its spellings that looks itself up.

* `Text.normal_normal`: the normal form is its own normal form.
* `Text.Respelt`: spellings of one tag.
* `Text.respelt_iff`: the spellings of one tag are the texts with the same normal form.
* `Text.isBlankText_eq_true_iff`: nothing is left of a text if all its characters are blank.
-/

namespace Scorecard.Text

/-! ### Lower case -/

/-- Neither a capital letter nor its small one is blank, and other characters stay. -/
private theorem isBlank_toLower (c : Char) : isBlank c.toLower = isBlank c := by
  by_cases h : c.isUpper
  · have hrange : 65 ≤ c.toNat ∧ c.toNat ≤ 90 := by
      simpa [Char.isUpper, UInt32.le_iff_toNat_le] using h
    obtain ⟨n, hn, hc⟩ : ∃ n < 26, c = Char.ofNat (65 + n) := by
      refine ⟨c.toNat - 65, by omega, ?_⟩
      rw [Nat.add_sub_cancel' hrange.1, Char.ofNat_toNat]
    -- There are 26 capital letters.
    have hall : ∀ n < 26,
        isBlank (Char.ofNat (65 + n)).toLower = isBlank (Char.ofNat (65 + n)) := by
      decide
    rw [hc]
    exact hall n hn
  · rw [Char.toLower_eq_of_not_isUpper h]

/-! ### Blanks at the ends -/

/-- Blanks are taken away from the front, and then from the back. -/
private theorem trimChars_eq_rdropWhile (cs : List Char) :
    trimChars cs = (cs.dropWhile isBlank).rdropWhile isBlank := rfl

/-- A second time nothing is left to be taken away. -/
private theorem trimChars_trimChars (cs : List Char) :
    trimChars (trimChars cs) = trimChars cs := by
  -- What is left starts with the first character that is not blank.
  have hfirst : (trimChars cs).dropWhile isBlank = trimChars cs := by
    rw [List.dropWhile_eq_self_iff]
    intro hlen
    have hfront : trimChars cs <+: cs.dropWhile isBlank := by
      rw [trimChars_eq_rdropWhile]
      exact List.rdropWhile_prefix _ _
    have hidem : (cs.dropWhile isBlank).dropWhile isBlank = cs.dropWhile isBlank :=
      List.dropWhile_idempotent _ _
    rw [hfront.getElem hlen]
    exact List.dropWhile_eq_self_iff.1 hidem (hlen.trans_le hfront.length_le)
  rw [trimChars_eq_rdropWhile (trimChars cs), hfirst, trimChars_eq_rdropWhile cs]
  exact List.rdropWhile_idempotent _ _

/-- Blanks at the ends are taken away before or after going to lower case. -/
private theorem trimChars_map_toLower (cs : List Char) :
    trimChars (cs.map Char.toLower) = (trimChars cs).map Char.toLower := by
  have hblank : isBlank ∘ Char.toLower = isBlank := funext isBlank_toLower
  unfold trimChars
  rw [List.dropWhile_map, hblank, ← List.map_reverse, List.dropWhile_map, hblank,
    ← List.map_reverse]

/-- Blanks in front of characters and behind them are taken away. -/
private theorem trimChars_append_append {before core after : List Char}
    (hbefore : ∀ c ∈ before, isBlank c = true) (hafter : ∀ c ∈ after, isBlank c = true) :
    trimChars (before ++ core ++ after) = trimChars core := by
  rw [trimChars_eq_rdropWhile, trimChars_eq_rdropWhile, List.append_assoc,
    List.dropWhile_append_of_pos hbefore, List.dropWhile_append]
  split
  · next hcore =>
    -- All is blank.
    rw [List.dropWhile_eq_nil_iff.2 hafter, List.isEmpty_iff.1 hcore]
  · rw [List.rdropWhile, List.reverse_append,
      List.dropWhile_append_of_pos fun c hc => hafter c (List.mem_reverse.1 hc)]
    rfl

/-- What is taken away is blank. -/
private theorem exists_eq_trimChars (cs : List Char) :
    ∃ before after, cs = before ++ trimChars cs ++ after ∧
      (∀ c ∈ before, isBlank c = true) ∧ ∀ c ∈ after, isBlank c = true := by
  refine ⟨cs.takeWhile isBlank, (cs.dropWhile isBlank).rtakeWhile isBlank, ?_,
    fun _ hc => List.mem_takeWhile_imp hc, fun _ hc => List.mem_rtakeWhile_imp hc⟩
  rw [trimChars_eq_rdropWhile, List.append_assoc, List.rdropWhile_append_rtakeWhile,
    List.takeWhile_append_dropWhile]

/-- Nothing is left of a text if and only if all its characters are blank. -/
theorem isBlankText_eq_true_iff {s : String} :
    isBlankText s = true ↔ ∀ c ∈ s.toList, isBlank c = true := by
  unfold isBlankText
  rw [List.isEmpty_iff, trimChars_eq_rdropWhile, List.rdropWhile_eq_nil_iff]
  constructor
  · intro h c hc
    rw [← List.takeWhile_append_dropWhile (p := isBlank) (l := s.toList)] at hc
    rcases List.mem_append.1 hc with hc | hc
    · exact List.mem_takeWhile_imp hc
    · exact h c hc
  · intro h c hc
    exact h c ((List.dropWhile_suffix isBlank).subset hc)

/-! ### The normal form -/

/-- The normal form is its own normal form. -/
theorem normal_normal (s : String) : normal (normal s) = normal s := by
  unfold normal lower trim
  simp only [String.toList_ofList]
  -- What has been trimmed is trimmed, and what is in lower case is so.
  rw [trimChars_map_toLower, trimChars_trimChars, List.map_map]
  congr 1
  exact List.map_congr_left fun c _ => Char.toLower_toLower_eq_toLower c

/-- The characters of a normal form. -/
private theorem toList_normal (s : String) :
    (normal s).toList = (trimChars s.toList).map Char.toLower := by
  unfold normal lower trim
  rw [String.toList_ofList, String.toList_ofList]

/-! ### Spellings -/

/-- Two texts that differ in blanks at the ends and in the case of ASCII letters only. -/
def Respelt (s s' : String) : Prop :=
  ∃ before core after before' core' after' : List Char,
    s.toList = before ++ core ++ after ∧ s'.toList = before' ++ core' ++ after' ∧
    (∀ c ∈ before ++ after ++ before' ++ after', isBlank c = true) ∧
    List.Forall₂ (fun c c' => c.toLower = c'.toLower) core core'

/-- The spellings of one tag are the texts with the same normal form. -/
theorem respelt_iff {s s' : String} : Respelt s s' ↔ normal s = normal s' := by
  have hnormal : normal s = normal s'
      ↔ (trimChars s.toList).map Char.toLower = (trimChars s'.toList).map Char.toLower := by
    rw [← String.toList_inj, toList_normal, toList_normal]
  rw [hnormal]
  constructor
  · rintro ⟨before, core, after, before', core', after', hs, hs', hblank, hcore⟩
    simp only [List.mem_append, or_imp, forall_and] at hblank
    obtain ⟨⟨⟨hbefore, hafter⟩, hbefore'⟩, hafter'⟩ := hblank
    have hmap : core.map Char.toLower = core'.map Char.toLower :=
      List.forall₂_eq_eq_eq ▸ List.forall₂_map_left_iff.2 (List.forall₂_map_right_iff.2 hcore)
    rw [hs, hs', trimChars_append_append hbefore hafter, trimChars_append_append hbefore' hafter',
      ← trimChars_map_toLower, ← trimChars_map_toLower, hmap]
  · intro hmap
    obtain ⟨before, after, hs, hbefore, hafter⟩ := exists_eq_trimChars s.toList
    obtain ⟨before', after', hs', hbefore', hafter'⟩ := exists_eq_trimChars s'.toList
    refine ⟨before, _, after, before', _, after', hs, hs', ?_, ?_⟩
    · simp only [List.mem_append, or_imp, forall_and]
      exact ⟨⟨⟨hbefore, hafter⟩, hbefore'⟩, hafter'⟩
    · rw [← List.forall₂_eq_eq_eq] at hmap
      exact List.forall₂_map_right_iff.1 (List.forall₂_map_left_iff.1 hmap)

/-- A text is blank in every spelling of it or in none. -/
theorem Respelt.isBlankText_eq {s s' : String} (h : Respelt s s') :
    isBlankText s = isBlankText s' := by
  have hnormal := congrArg String.toList (respelt_iff.1 h)
  rw [toList_normal, toList_normal] at hnormal
  unfold isBlankText
  rw [← List.isEmpty_map, hnormal, List.isEmpty_map]

end Scorecard.Text
