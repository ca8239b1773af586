import Mathlib.Data.List.Forall2

/-!
# Lists

* `List.findSome?_cons_eq_or`, `List.findSome?_flatMap`: what is found first in longer lists.
* `List.Forall₂.exists_of_mem_right`: an item of one list has a partner in the other.
* `List.Forall₂.filter_of_eq`, `List.Forall₂.any_eq`: a property that partners share.
* `List.Forall₂.map_filter_zip`: picking out pairs of partners by one of them.
* `List.flatMap_filter_perm`: a list sorted into groups has each item in one of them.
* `List.two_le_count_flatMap_iff`: what stands in joined lists more than once.
-/

namespace List

variable {α β γ : Type}

/-! ### What is found first -/

theorem findSome?_cons_eq_or (f : α → Option β) (a : α) (as : List α) :
    (a :: as).findSome? f = (f a).or (as.findSome? f) := by
  rw [findSome?_cons]
  cases f a <;> rfl

theorem findSome?_flatMap (f : α → List β) (g : β → Option γ) (l : List α) :
    (l.flatMap f).findSome? g = l.findSome? fun a => (f a).findSome? g := by
  induction l with
  | nil => rfl
  | cons a l ih =>
    rw [flatMap_cons, findSome?_append, ih, findSome?_cons_eq_or]

/-! ### Partners -/

/-- An item of the second list has a partner in the first one. -/
theorem Forall₂.exists_of_mem_right {R : α → β → Prop} {as : List α} {bs : List β}
    (h : Forall₂ R as bs) {b : β} (hb : b ∈ bs) : ∃ a ∈ as, R a b := by
  induction h with
  | nil => exact absurd hb not_mem_nil
  | cons hhead _ ih =>
    rcases mem_cons.1 hb with rfl | hb
    · exact ⟨_, mem_cons_self, hhead⟩
    · obtain ⟨a, ha, hab⟩ := ih hb
      exact ⟨a, mem_cons_of_mem _ ha, hab⟩

/-- Partners are picked out together. -/
theorem Forall₂.filter_of_eq {R : α → β → Prop} {as : List α} {bs : List β} (h : Forall₂ R as bs)
    {p : α → Bool} {q : β → Bool} (hpq : ∀ a b, R a b → p a = q b) :
    Forall₂ R (as.filter p) (bs.filter q) := by
  refine rel_filter (fun a b hab => ?_) h
  change p a = true ↔ q b = true
  rw [hpq a b hab]

theorem Forall₂.any_eq {R : α → β → Prop} {as : List α} {bs : List β} (h : Forall₂ R as bs)
    {p : α → Bool} {q : β → Bool} (hpq : ∀ a b, R a b → p a = q b) : as.any p = bs.any q := by
  induction h with
  | nil => rfl
  | cons hhead _ ih => rw [any_cons, any_cons, hpq _ _ hhead, ih]

/-- Pairs of partners are picked out on one side as they are on both. -/
theorem Forall₂.map_filter_zip {R : α → β → Prop} {as : List α} {bs : List β} (h : Forall₂ R as bs)
    {p : α × β → Bool} {q : β → Bool} {f : α × β → γ} {g : β → γ}
    (hp : ∀ a b, R a b → p (a, b) = q b) (hf : ∀ a b, R a b → f (a, b) = g b) :
    ((as.zip bs).filter p).map f = (bs.filter q).map g := by
  induction h with
  | nil => rfl
  | cons hhead _ ih =>
    rw [zip_cons_cons, filter_cons, filter_cons, hp _ _ hhead]
    split
    · rw [map_cons, map_cons, hf _ _ hhead, ih]
    · exact ih

/-! ### Groups -/

/-- Where every item belongs to one of the groups, the groups have all items, each of them once. -/
theorem flatMap_filter_perm {κ : Type} [DecidableEq κ] (group : α → κ) {ks : List κ}
    (hks : ks.Nodup) {as : List α} (has : ∀ a ∈ as, group a ∈ ks) :
    (ks.flatMap fun k => as.filter (group · = k)).Perm as := by
  induction ks generalizing as with
  | nil =>
    rw [eq_nil_iff_forall_not_mem.2 fun a ha => not_mem_nil (has a ha)]
    exact .nil
  | cons k ks ih =>
    obtain ⟨hk, hks⟩ := nodup_cons.1 hks
    -- What does not belong to the first group is sorted into the others.
    have hothers : ∀ a ∈ as.filter (group · ≠ k), group a ∈ ks := by
      intro a ha
      obtain ⟨hmem, hne⟩ := mem_filter.1 ha
      exact (mem_cons.1 (has a hmem)).resolve_left (of_decide_eq_true hne)
    have hsame : (ks.flatMap fun k' => as.filter (group · = k'))
        = ks.flatMap fun k' => (as.filter (group · ≠ k)).filter (group · = k') := by
      refine flatMap_congr fun k' hk' => ?_
      rw [filter_filter]
      refine filter_congr fun a _ => ?_
      have hne : k' ≠ k := fun h => hk (h ▸ hk')
      by_cases ha : group a = k' <;> simp [ha, hne]
    rw [flatMap_cons, hsame]
    refine ((ih hks hothers).append_left _).trans ?_
    simpa using filter_append_perm (group · = k) as

/-! ### Repetitions -/

/-- What stands in joined lists more than once stands in one of them more than once, or in one of
them and in a later one. -/
theorem two_le_count_flatMap_iff [DecidableEq β] (f : α → List β) (as : List α) (b : β) :
    2 ≤ (as.flatMap f).count b ↔ (∃ a ∈ as, 2 ≤ (f a).count b) ∨
      ∃ front a back, as = front ++ a :: back ∧ b ∈ f a ∧ ∃ a' ∈ back, b ∈ f a' := by
  induction as with
  | nil => simp
  | cons a as ih =>
    rw [flatMap_cons, count_append]
    constructor
    · intro h
      rcases Nat.lt_or_ge 1 ((f a).count b) with hmany | hfew
      · exact .inl ⟨a, mem_cons_self, hmany⟩
      by_cases ha : b ∈ f a
      · -- It stands once in the first list, so it stands in a later one.
        have hlater : 0 < (as.flatMap f).count b := by omega
        exact .inr ⟨[], a, as, rfl, ha, mem_flatMap.1 (count_pos_iff.1 hlater)⟩
      · rw [count_eq_zero_of_not_mem ha, Nat.zero_add, ih] at h
        rcases h with ⟨a', ha', hmany⟩ | ⟨front, a', back, rfl, hacross⟩
        · exact .inl ⟨a', mem_cons_of_mem _ ha', hmany⟩
        · exact .inr ⟨a :: front, a', back, rfl, hacross⟩
    · rintro (⟨a', ha', hmany⟩ | ⟨front, a', back, hsplit, ha', hback⟩)
      · rcases mem_cons.1 ha' with rfl | ha'
        · omega
        · have := ih.2 (.inl ⟨a', ha', hmany⟩)
          omega
      · rcases cons_eq_append_iff.1 hsplit with ⟨rfl, hcons⟩ | ⟨front, rfl, rfl⟩
        · cases hcons
          have hfirst := count_pos_iff.2 ha'
          have hlater := count_pos_iff.2 (mem_flatMap.2 hback)
          omega
        · have := ih.2 (.inr ⟨front, a', back, rfl, ha', hback⟩)
          omega

end List
