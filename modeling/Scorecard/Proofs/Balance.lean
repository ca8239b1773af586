import Scorecard.Proofs.Accounts

/-!
# No item is lost

Each item is either kept or left out. If it is left out, it has a record of its own among those left
out, at its turn. If it is kept, the manifest has its place under its id, as no two items that are
kept have the same id. But the index stands in the same table, under a key that an item may have
for its id: when the index is entered, it takes the place of such an item, and in any case that item
is not counted. There is one such item at most, and with it all items are counted.

* `Store.evidenceCount_manifest`: the number of items in the manifest.
* `Store.getElem?_omissions`: the record of an item left out.
* `Store.Balanced`, `Store.persist_balanced`: all items are counted, whatever becomes of the index.
-/

namespace Scorecard

namespace Store

variable {s : Store} {stamp : Stamp} {items : List Evidence} {v : Volume} {turns : List Nat}
  {settled : List Settled} {i : Nat} {x : Settled}

/-! ### Counting -/

/-- The number of items kept under the key of the index. -/
def underIndexKey (settled : List Settled) : Nat :=
  settled.countP fun x => x.result.isOk && x.item.id == Manifest.indexKey

/-- The entries are those of the items that are kept. -/
private theorem countP_entries (p : String → Bool) (settled : List Settled) :
    ((settled.filterMap entry?).map (·.1)).countP p
      = settled.countP fun x => x.result.isOk && p x.item.id := by
  induction settled with
  | nil => rfl
  | cons x settled ih =>
    rw [List.filterMap_cons, List.countP_cons, ← ih]
    unfold entry?
    cases x.result with
    | error error => rfl
    | ok kept =>
      simp only
      rw [List.map_cons, List.countP_cons]
      rfl

/-- The manifest counts the items that are kept, the one under the key of the index apart. -/
theorem evidenceCount_manifest {o : Written Volume}
    (hnodup : ((o.settled.filterMap entry?).map (·.1)).Nodup) :
    (o.manifest s).evidenceCount
      = o.settled.countP fun x => x.result.isOk && x.item.id != Manifest.indexKey := by
  have hentries : (manifestOf o.settled).entries.keys.countP (· != Manifest.indexKey)
      = o.settled.countP fun x => x.result.isOk && x.item.id != Manifest.indexKey := by
    rw [← countP_entries (· != Manifest.indexKey)]
    exact ((Table.entries_ofList_perm hnodup).map _).countP_eq _
  unfold Written.manifest Manifest.evidenceCount
  cases o.indexResult with
  | error error => exact hentries
  | ok =>
    -- The index is not counted, whether an item stood under its key or not.
    change ((manifestOf o.settled).entries.insert Manifest.indexKey _).keys.countP _ = _
    have hindex : (Manifest.indexKey != Manifest.indexKey) = false := bne_self_eq_false' _
    rw [Table.countP_keys_insert (p := fun k => k != Manifest.indexKey) _ _ hindex]
    exact hentries

/-- An item is kept under another key, kept under the key of the index, or left out. -/
private theorem countP_settled (settled : List Settled) :
    (settled.countP fun x => x.result.isOk && x.item.id != Manifest.indexKey)
        + (settled.filterMap omission?).length + underIndexKey settled
      = settled.length := by
  unfold underIndexKey
  induction settled with
  | nil => rfl
  | cons x settled ih =>
    rw [List.countP_cons, List.countP_cons, List.filterMap_cons, List.length_cons, ← ih]
    unfold omission?
    cases x.result with
    | error error =>
      simp only [Except.isOk, Except.toBool, Bool.false_and, Bool.false_eq_true, if_false,
        List.length_cons]
      omega
    | ok kept =>
      simp only [Except.isOk, Except.toBool, Bool.true_and]
      -- An item that is kept is counted on one side of its id or on the other.
      by_cases hid : x.item.id = Manifest.indexKey
      · simp only [hid, bne_self_eq_false', beq_self_eq_true, Bool.false_eq_true, if_false, if_true]
        omega
      · simp only [bne_iff_ne.2 hid, beq_eq_false_iff_ne.2 hid, Bool.false_eq_true, if_false,
          if_true]
        omega

/-- An item that is left out has a record after those of the items before it. -/
theorem getElem?_omissions {error : StoreError} (hi : settled[i]? = some x)
    (herror : x.result = .error error) :
    (settled.filterMap omission?)[(settled.take i).countP fun y => !y.result.isOk]?
      = some ⟨x.item.id, error.message⟩ := by
  induction settled generalizing i with
  | nil => exact nomatch hi
  | cons y settled ih =>
    rw [List.filterMap_cons]
    cases i with
    | zero =>
      -- It is the first of all, and so is its record.
      cases hi
      unfold omission?
      rw [herror]
      rfl
    | succ i =>
      have hrest := ih hi
      rw [List.take_succ_cons, List.countP_cons]
      unfold omission?
      cases y.result with
      | error error' => exact hrest
      | ok kept => exact hrest

/-! ### The balance -/

/-- What the manifest says of all items, kept or left out. -/
structure Balanced (s : Store) (items : List Evidence) (o : Written Volume) : Prop where
  /-- Every item is settled, in the order of the items. -/
  settled : o.settled.map (·.item) = items
  /-- An item that is kept is at the place granted to it, and the manifest says so, unless the index
  has come under the same key. -/
  kept : ∀ {i : Nat} {x : Settled} {kept : Kept}, o.settled[i]? = some x → x.result = .ok kept →
    (s.requests items)[i]? = some (x.item, .ok kept.target) ∧
      ((o.manifest s).get? x.item.id = some kept.target.path ∨
        (x.item.id = Manifest.indexKey ∧ o.indexResult = .ok () ∧
          (o.manifest s).get? x.item.id = some s.indexPath))
  /-- An item that is left out has a record of its own, after those of the items before it. -/
  leftOut : ∀ {i : Nat} {x : Settled} {error : StoreError}, o.settled[i]? = some x →
    x.result = .error error →
    (o.manifest s).omitted[(o.settled.take i).countP fun y => !y.result.isOk]?
      = some ⟨x.item.id, error.message⟩
  /-- The items counted, those left out and those kept under the key of the index are all items. -/
  total : (o.manifest s).evidenceCount + (o.manifest s).omitted.length + underIndexKey o.settled
    = items.length
  /-- No two items are kept under the key of the index. -/
  single : underIndexKey o.settled ≤ 1
  /-- Where no item has this key for its id, all items are counted or left out. -/
  complete : (∀ e ∈ items, e.id ≠ Manifest.indexKey) →
    (o.manifest s).evidenceCount + (o.manifest s).omitted.length = items.length

/-- As no two entries have the same key, one item at most is kept under that of the index. -/
private theorem underIndexKey_le_one (h : ((settled.filterMap entry?).map (·.1)).Nodup) :
    underIndexKey settled ≤ 1 := by
  unfold underIndexKey
  rw [← countP_entries (· == Manifest.indexKey)]
  exact List.nodup_iff_count_le_one.1 h _

/-- Where no item has the key of the index for its id, none is kept under it. -/
private theorem underIndexKey_eq_zero (hitems : settled.map (·.item) = items)
    (h : ∀ e ∈ items, e.id ≠ Manifest.indexKey) : underIndexKey settled = 0 := by
  rw [← hitems] at h
  unfold underIndexKey
  rw [List.countP_eq_zero]
  intro x hx
  rw [beq_eq_false_iff_ne.2 (h _ (List.mem_map_of_mem hx)), Bool.and_false]
  exact Bool.false_ne_true

/-- Once the index is written, it stands under its key. -/
theorem get?_manifest_indexKey {o : Written Volume} (h : o.indexResult = .ok ()) :
    (o.manifest s).get? Manifest.indexKey = some s.indexPath := by
  unfold Written.manifest Manifest.get?
  rw [h]
  change ((manifestOf o.settled).entries.insert _ _).get? _ = _
  rw [Table.get?_insert, if_pos rfl]

/-- An item that is kept has its place in the manifest, or the index has come under its key. -/
private theorem get?_manifest_or {kept : Kept}
    (hmem : x ∈ (s.writeInTurns stamp items turns v).settled) (hkept : x.result = .ok kept) :
    let o := s.writeInTurns stamp items turns v
    (o.manifest s).get? x.item.id = some kept.target.path ∨
      (x.item.id = Manifest.indexKey ∧ o.indexResult = .ok () ∧
        (o.manifest s).get? x.item.id = some s.indexPath) := by
  intro o
  have hget : (manifestOf o.settled).entries.get? x.item.id = some kept.target.path :=
    get?_manifestOf_of_kept hmem hkept
  -- Only an item under the key of the index can lose its entry, and only when the index is entered.
  by_cases hid : x.item.id = Manifest.indexKey
  · clear_value o
    cases hindex : o.indexResult with
    | error error =>
      unfold Written.manifest Manifest.get?
      rw [hindex]
      exact .inl hget
    | ok =>
      refine .inr ⟨hid, rfl, ?_⟩
      rw [hid]
      exact get?_manifest_indexKey hindex
  · exact .inl (get?_manifest_of_kept hmem hkept hid)

/-- Whatever the turns are, no item is lost. -/
theorem balanced_writeInTurns (s : Store) (stamp : Stamp) (items : List Evidence)
    (turns : List Nat) (v : Volume) : s.Balanced items (s.writeInTurns stamp items turns v) := by
  have hnodup := nodup_keys_entries s stamp items turns v
  have hitems := s.items_writeInTurns stamp items turns v
  have htotal : ((s.writeInTurns stamp items turns v).manifest s).evidenceCount
      + ((s.writeInTurns stamp items turns v).manifest s).omitted.length
      + underIndexKey (s.writeInTurns stamp items turns v).settled = items.length := by
    rw [evidenceCount_manifest hnodup, omitted_manifest, countP_settled]
    exact (List.length_map _).symm.trans (congrArg List.length hitems)
  refine ⟨hitems, fun {i x kept} hi hkept => ?_, fun {i x error} hi herror => ?_, htotal,
    underIndexKey_le_one hnodup, fun hids => ?_⟩
  · exact ⟨(request_of_kept hi hkept).1, get?_manifest_or (List.mem_of_getElem? hi) hkept⟩
  · rw [omitted_manifest]
    exact getElem?_omissions hi herror
  · -- With none under the key of the index the total is the one claimed.
    rw [underIndexKey_eq_zero hitems hids, Nat.add_zero] at htotal
    exact htotal

/-- No attempt to keep items loses one, whatever ids the items have and whether or not the index is
written: each is kept where the manifest says or left out with a record of its own, and together
they are all items. One of them may have the key of the index for its id; under this key the index
is found, if it is written, and the item is not counted. -/
theorem persist_balanced (s : Store) (stamp : Stamp) (items : List Evidence) (v : Volume)
    (j : Journal) :
    (let o := s.write stamp items v
     (s.persist stamp items).result v j = (o.manifest s, o.volume) ∧ s.Balanced items o) ∧
    ∀ turns,
      let o := s.writeInTurns stamp items (turns items) v
      (s.persistInTurns stamp turns items).result v j = (o.manifest s, o.volume) ∧
        s.Balanced items o := by
  refine ⟨⟨result_persist s stamp items v j, ?_⟩,
    fun turns => ⟨result_persistInTurns s stamp turns items v j, ?_⟩⟩
  · rw [write_eq_writeInTurns]
    exact balanced_writeInTurns s stamp items _ v
  · exact balanced_writeInTurns s stamp items _ v

/-! ### An item under the key of the index -/

/-- An item with the key of the index for its id. -/
private def reservedItem : Evidence :=
  ⟨Manifest.indexKey, "a", .testing, .high, "", .null, ⟨"a.json"⟩⟩

/-- The item is kept, but it is not counted, and what the manifest has under its id is the
index. -/
theorem unbalanced_of_reserved :
    let s := Store.ofRoot ⟨"evidence"⟩
    let t := Target.below s.root ["a.json"]
    let stamp : Stamp := ⟨.nil, ⟨"1970-01-01T00:00:00Z"⟩⟩
    let o := s.write stamp [reservedItem] Volume.empty
    ((s.requests [reservedItem])[0]? = some (reservedItem, .ok t) ∧
        ∃ kept, o.settled[0]? = some ⟨reservedItem, .ok kept⟩) ∧
      (o.manifest s).get? reservedItem.id = some s.indexPath ∧ s.indexPath ≠ t.path ∧
      (o.manifest s).evidenceCount + (o.manifest s).omitted.length ≠ [reservedItem].length := by
  intro s t stamp o
  have hclaim : Target.claim s.root [reservedItem] = [.ok t] := by decide +kernel
  have hrequests : s.requests [reservedItem] = [(reservedItem, .ok t)] :=
    requests_of_claim hclaim
  have hi : (s.requests [reservedItem])[0]? = some (reservedItem, .ok t) := by
    rw [hrequests]
    rfl
  have hreads : reservedItem.ReadsBack := (Evidence.readsBack_iff reservedItem).2 (by decide)
  have hwritten : ((Progress.run (tasks (s.requests [reservedItem])) (.start Volume.empty)
      (Progress.inOrder 0 [reservedItem].length)).stage 0).result.isOk = true := by
    rw [hrequests]
    decide +kernel
  obtain ⟨-, hkeeps, -⟩ :=
    settled_of_written stamp hi (complete_inOrder s [reservedItem]) hwritten
  obtain ⟨kept, hkept⟩ := hkeeps hreads
  have hindex : (s.writeInTurns stamp [reservedItem] (Progress.inOrder 0 [reservedItem].length)
      Volume.empty).indexResult = .ok () := by
    unfold writeInTurns
    refine indexResult_of_isOk ⟨by decide +kernel, by decide +kernel⟩ ?_
      (fun hread => ((WriteTask.run_spec _ _).2 hread).1) ?_
    · rw [hrequests]
      decide
    · rw [hrequests]
      decide +kernel
  rw [← write_eq_writeInTurns] at hkept hindex
  have htotal : (o.manifest s).evidenceCount + (o.manifest s).omitted.length
      + underIndexKey o.settled = [reservedItem].length := by
    have hbalanced := balanced_writeInTurns s stamp [reservedItem]
      (Progress.inOrder 0 [reservedItem].length) .empty
    rw [← write_eq_writeInTurns] at hbalanced
    exact hbalanced.total
  have hone : 0 < underIndexKey o.settled :=
    List.countP_pos_iff.2 ⟨_, List.mem_of_getElem? hkept, rfl⟩
  refine ⟨⟨hi, kept, hkept⟩, get?_manifest_indexKey hindex, by decide +kernel, fun hall => ?_⟩
  -- The one item is counted under the key of the index, so that no other is left to be counted.
  rw [← htotal] at hall
  omega

end Store

end Scorecard
