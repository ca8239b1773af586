import Mathlib.Data.List.Nodup
import Scorecard.Table

/-!
# Keys and entries of tables

* `Table.mem_keys_iff`, `Table.nodup_keys`: the keys are those that are looked up to a value, and
  none stands twice.
* `Table.isEmpty_iff`: no key is looked up in an empty table.
* `Table.countP_keys_insert`: the number of keys of a kind.
* `Table.get?_map`: looking up after every value has been changed.
* `Table.get?_ofList`: looking up in the table of some entries.
* `Table.entries_ofList_perm`: the entries of the table of some entries.
* `Table.ofList_entries`: a table is the table of its entries.
* `Table.get?_override`: looking up where the entries of one table replace those of another.
* `Table.last?_eq_some_iff`: the greatest key for which a function gives something.
* `Table.sum_insert`: a sum over the values.
-/

namespace Scorecard.Table

variable {κ α : Type} [Key κ]

/-- The keys are those that are looked up to a value. -/
theorem mem_keys_iff {t : Table κ α} {k : κ} : k ∈ t.keys ↔ ∃ v, t.get? k = some v := by
  rw [keys, List.mem_map]
  constructor
  · rintro ⟨⟨k', v⟩, hmem, rfl⟩
    exact ⟨v, (t.mem_entries_iff k' v).1 hmem⟩
  · rintro ⟨v, hv⟩
    exact ⟨(k, v), (t.mem_entries_iff k v).2 hv, rfl⟩

/-- Keys in ascending order are different from each other. -/
theorem nodup_keys (t : Table κ α) : t.keys.Nodup := by
  refine List.pairwise_map.2 (t.ascending.imp fun {a b} hlt heq => ?_)
  rw [heq] at hlt
  exact Key.irrefl _ hlt

theorem isEmpty_iff {t : Table κ α} : t.isEmpty = true ↔ ∀ k, t.get? k = none := by
  unfold isEmpty
  rw [List.isEmpty_iff, List.eq_nil_iff_forall_not_mem, Prod.forall]
  simp only [mem_entries_iff, Option.eq_none_iff_forall_ne_some, ne_eq]

/-- A key that is not counted makes no difference to how many keys are. -/
theorem countP_keys_insert [DecidableEq κ] (t : Table κ α) {k : κ} (v : α) {p : κ → Bool}
    (hk : p k = false) : (t.insert k v).keys.countP p = t.keys.countP p := by
  rw [List.countP_eq_length_filter, List.countP_eq_length_filter]
  -- No key stands twice, so that it is enough to compare the keys of the kind.
  refine List.Perm.length_eq ((List.perm_ext_iff_of_nodup ((nodup_keys _).filter p)
    ((nodup_keys _).filter p)).2 fun k' => ?_)
  rw [List.mem_filter, List.mem_filter, mem_keys_iff, mem_keys_iff, get?_insert]
  by_cases h : k' = k
  · rw [h, hk]
    simp
  · rw [if_neg h]

theorem map_id (t : Table κ α) : t.map (fun a => a) = t := Table.ext (List.map_id _)

/-- Changing every value changes what is looked up. -/
theorem get?_map {β : Type} (f : α → β) (t : Table κ α) (k : κ) :
    (t.map f).get? k = (t.get? k).map f := by
  unfold get? map
  simp only
  induction t.entries with
  | nil => rfl
  | cons e es ih =>
    simp only [List.map_cons, find?]
    split
    · exact ih
    · split
      · exact ih
      · rfl

/-! ### Tables of entries -/

/-- Of several entries with the same key the last one counts. -/
private theorem get?_foldl_insert [DecidableEq κ] (es : List (κ × α)) (t : Table κ α) (k : κ) :
    (es.foldl (fun t e => t.insert e.1 e.2) t).get? k
      = ((es.reverse.find? (·.1 = k)).map (·.2)).or (t.get? k) := by
  induction es generalizing t with
  | nil => rfl
  | cons e es ih =>
    rw [List.foldl_cons, ih, List.reverse_cons, List.find?_append, Option.map_or, Option.or_assoc,
      get?_insert]
    -- The first entry is looked at last, before the table at the start.
    congr 1
    by_cases hk : e.1 = k
    · simp [hk]
    · simp [hk, Ne.symm hk]

/-- Of several entries with one key the last one is looked up. -/
theorem get?_ofList [DecidableEq κ] (es : List (κ × α)) (k : κ) :
    (ofList es).get? k = (es.reverse.find? (·.1 = k)).map (·.2) := by
  unfold ofList
  rw [get?_foldl_insert, get?_empty, Option.or_none]

theorem mem_of_get?_ofList [DecidableEq κ] {es : List (κ × α)} {k : κ} {v : α}
    (h : (ofList es).get? k = some v) : (k, v) ∈ es := by
  rw [get?_ofList, Option.map_eq_some_iff] at h
  obtain ⟨⟨k', v'⟩, hfind, rfl⟩ := h
  have hkey : k' = k := by simpa using List.find?_some hfind
  rw [← hkey]
  exact List.mem_reverse.1 (List.mem_of_find?_eq_some hfind)

/-- The keys of the table of some entries are their keys. -/
theorem exists_get?_ofList_iff [DecidableEq κ] {es : List (κ × α)} {k : κ} :
    (∃ v, (ofList es).get? k = some v) ↔ k ∈ es.map (·.1) := by
  constructor
  · rintro ⟨v, hv⟩
    exact List.mem_map_of_mem (f := (·.1)) (mem_of_get?_ofList hv)
  · intro h
    obtain ⟨e, he, rfl⟩ := List.mem_map.1 h
    rw [← Option.isSome_iff_exists, get?_ofList, Option.isSome_map, List.find?_isSome]
    exact ⟨e, List.mem_reverse.2 he, decide_eq_true rfl⟩

/-- Where no key stands twice, an entry is looked up. -/
theorem get?_ofList_of_nodup [DecidableEq κ] {es : List (κ × α)} {k : κ} {v : α}
    (hnodup : (es.map (·.1)).Nodup) (h : (k, v) ∈ es) : (ofList es).get? k = some v := by
  obtain ⟨v', hv'⟩ := exists_get?_ofList_iff.2 (List.mem_map_of_mem (f := (·.1)) h)
  have heq := List.inj_on_of_nodup_map hnodup h (mem_of_get?_ofList hv') rfl
  rw [hv', (Prod.mk.inj heq).2]

/-- Where no key stands twice, the table of some entries has just those. -/
theorem entries_ofList_perm [DecidableEq κ] {es : List (κ × α)} (hnodup : (es.map (·.1)).Nodup) :
    (ofList es).entries.Perm es := by
  -- Neither side has an entry twice, so that it is enough that both have the same.
  refine (List.perm_ext_iff_of_nodup (nodup_keys _).of_map hnodup.of_map).2 fun e => ?_
  rw [mem_entries_iff]
  exact ⟨mem_of_get?_ofList, get?_ofList_of_nodup hnodup⟩

/-- A table is the table of its entries. -/
theorem ofList_entries [DecidableEq κ] (t : Table κ α) : ofList t.entries = t := by
  apply ext_get?
  intro k
  refine Option.ext fun v => ⟨fun h => ?_, fun h => ?_⟩
  · exact (t.mem_entries_iff k v).1 (mem_of_get?_ofList h)
  · exact get?_ofList_of_nodup t.nodup_keys ((t.mem_entries_iff k v).2 h)

/-- Where two tables have a key, the one that replaces the entries of the other is looked up. -/
theorem get?_override [DecidableEq κ] (t s : Table κ α) (k : κ) :
    (t.override s).get? k = (s.get? k).or (t.get? k) := by
  have hlast : s.get? k = (s.entries.reverse.find? (·.1 = k)).map (·.2) := by
    rw [← get?_ofList, ofList_entries]
  unfold override
  rw [get?_foldl_insert, hlast]

/-! ### The last entry of a kind -/

section

variable {β : Type} {t : Table κ α} {f : κ → α → Option β}

/-- What the function gives for the greatest key for which it gives something. -/
def last? (t : Table κ α) (f : κ → α → Option β) : Option β :=
  t.entries.reverse.findSome? fun e => f e.1 e.2

theorem last?_eq_none_iff : t.last? f = none ↔ ∀ k a, t.get? k = some a → f k a = none := by
  unfold last?
  simp only [List.findSome?_eq_none_iff, List.mem_reverse, Prod.forall, mem_entries_iff]

theorem last?_eq_some_iff {b : β} :
    t.last? f = some b ↔ ∃ k a, t.get? k = some a ∧ f k a = some b ∧
      ∀ k' a', t.get? k' = some a' → (f k' a').isSome → ¬ k < k' := by
  -- The entries are looked at from the greatest key on.
  have hdescending : t.entries.reverse.Pairwise fun e e' => e'.1 < e.1 :=
    List.pairwise_reverse.2 t.ascending
  have hmem {k : κ} {a : α} : (k, a) ∈ t.entries.reverse ↔ t.get? k = some a := by
    rw [List.mem_reverse, mem_entries_iff]
  unfold last?
  rw [List.findSome?_eq_some_iff]
  constructor
  · rintro ⟨front, ⟨k, a⟩, back, hsplit, hb, hfront⟩
    rw [hsplit] at hdescending hmem
    refine ⟨k, a, hmem.1 (by simp), hb, fun k' a' hget hsome hlt => ?_⟩
    obtain ⟨-, hback, -⟩ := List.pairwise_append.1 hdescending
    -- What stands behind has a smaller key, and what stands in front gives nothing.
    rcases List.mem_append.1 (hmem.2 hget) with hmem' | hmem'
    · rw [hfront _ hmem'] at hsome
      exact Bool.noConfusion hsome
    · rcases List.mem_cons.1 hmem' with heq | hmem'
      · cases heq
        exact Key.irrefl _ hlt
      · exact Key.irrefl _ (Key.trans hlt (List.rel_of_pairwise_cons hback hmem'))
  · rintro ⟨k, a, hget, hb, hgreatest⟩
    obtain ⟨front, back, hsplit⟩ := List.append_of_mem (hmem.2 hget)
    refine ⟨front, (k, a), back, hsplit, hb, fun e he => ?_⟩
    rw [hsplit] at hdescending hmem
    obtain ⟨-, -, hfront⟩ := List.pairwise_append.1 hdescending
    have hlt : k < e.1 := hfront e he _ List.mem_cons_self
    have hget' : t.get? e.1 = some e.2 := hmem.1 (List.mem_append_left _ he)
    exact Option.not_isSome_iff_eq_none.1 fun hsome => hgreatest _ _ hget' hsome hlt

/-- There is one entry at most under one key. -/
theorem last?_single [DecidableEq κ] (t : Table κ α) (k : κ) (g : α → Option β) :
    (t.last? fun k' a => if k' = k then g a else none) = (t.get? k).bind g := by
  refine Option.ext fun b => ?_
  rw [last?_eq_some_iff, Option.bind_eq_some_iff]
  constructor
  · rintro ⟨k', a, ha, hb, -⟩
    obtain ⟨rfl, hga⟩ := Option.ite_none_right_eq_some.1 hb
    exact ⟨a, ha, hga⟩
  · rintro ⟨a, ha, hb⟩
    -- Under any other key the function gives nothing.
    refine ⟨k, a, ha, by rw [if_pos rfl, hb], fun k' a' _ hsome => ?_⟩
    obtain ⟨b', hb'⟩ := Option.isSome_iff_exists.1 hsome
    obtain ⟨rfl, -⟩ := Option.ite_none_right_eq_some.1 hb'
    exact Key.irrefl _

end

/-! ### Sums over tables -/

/-- The sum of a number of each value. -/
def sum (f : α → Nat) (t : Table κ α) : Nat := (t.values.map f).foldr (· + ·) 0

/-- What is placed takes the share of what it replaces. -/
private theorem sum_place (f : α → Nat) (k : κ) (v : α) {es : List (κ × α)}
    (h : es.Pairwise fun a b => a.1 < b.1) :
    ((place k v es).map fun e => f e.2).foldr (· + ·) 0 + ((find? k es).map f).getD 0
      = (es.map fun e => f e.2).foldr (· + ·) 0 + f v := by
  induction es with
  | nil => simp [place, find?]
  | cons e rest ih =>
    obtain ⟨hhead, hrest⟩ := List.pairwise_cons.1 h
    have ih := ih hrest
    by_cases hlt : k < e.1
    · -- All keys are above the new one, so nothing stands under it yet.
      have hnone : find? k rest = none := by
        refine Option.eq_none_iff_forall_ne_some.2 fun v' hv' => ?_
        have hmem : (k, v') ∈ rest := ((⟨rest, hrest⟩ : Table κ α).mem_entries_iff k v').2 hv'
        exact Key.irrefl k (Key.trans hlt (hhead _ hmem))
      simp only [place, find?, hlt, if_true, hnone, List.map_cons, List.foldr_cons,
        Option.map_none, Option.getD_none]
      omega
    · -- A smaller key stands in front, and the rest takes the entry.
      by_cases hgt : e.1 < k
      · simp only [place, find?, hlt, hgt, if_true, if_false, List.map_cons, List.foldr_cons]
        omega
      · simp only [place, find?, hlt, hgt, if_false, List.map_cons, List.foldr_cons,
          Option.map_some, Option.getD_some]
        omega

/-- What a sum over the values gains where a key gets another value. -/
theorem sum_insert (t : Table κ α) (f : α → Nat) (k : κ) (v : α) :
    (t.insert k v).sum f + ((t.get? k).map f).getD 0 = t.sum f + f v := by
  unfold sum values
  rw [List.map_map, List.map_map]
  exact sum_place f k v t.ascending

end Scorecard.Table
