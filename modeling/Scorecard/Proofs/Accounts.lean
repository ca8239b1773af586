import Scorecard.Proofs.Disk
import Scorecard.Proofs.Leftovers

/-!
# What a store says of its items

A store speaks of its items in its manifest and in its index, and both speak of what is on the
volume. All of this comes out of the same list of items that are settled, so they agree: the index
lists what the manifest names and what is there, and both leave out the same items for the same
reasons. Items are looked up by their ids, of which no two items that are kept have the same.

* `Index.Agrees`: an index agrees with the manifest and with the volume.
* `Store.Accounted`: all items are accounted for.
* `Store.persist_accounted`: this is so after every attempt to keep items;
  `Store.unaccounted_of_link`: it need not be so on a disk with links.
-/

namespace Scorecard

/-- An index agrees with what has become of items, with the manifest, and with what can be read. -/
structure Index.Agrees {σ : Type} [FileSystem σ] (root : Path) (settled : List Settled)
    (m : Manifest) (v : σ) (ix : Index) : Prop where
  /-- A dimension lists its items that are kept, in their order. -/
  listed : ∀ d, (ix.listed d).map (fun e => (e.id, e.criterionId))
    = (settled.filter fun x => x.result.isOk && x.item.dimension = d).map
        fun x => (x.item.id, x.item.criterionId)
  /-- What is listed is where the manifest says. -/
  located : ∀ {d e}, e ∈ ix.listed d → m.get? e.id = some (root.join e.path)
  /-- The bytes that stand there have the digest. -/
  digest : ∀ {d e}, e ∈ ix.listed d →
    ∃ bytes, FileSystem.contents v (root.join e.path) = .ok bytes ∧ e.digest = Sha256.hex bytes
  total : ix.totalEntries = ix.dimensions.sum List.length
  omitted : ix.omitted = m.omitted

namespace Store

/-- What has come of an attempt accounts for all items. -/
structure Accounted {σ : Type} [FileSystem σ] (s : Store) (items : List Evidence)
    (o : Written σ) : Prop where
  /-- Every item is settled, in the order of the items. -/
  items : o.settled.map (·.item) = items
  /-- The items that are not kept are left out. -/
  omitted : (o.manifest s).omitted.map (·.id)
    = (o.settled.filter fun x => !x.result.isOk).map (·.item.id)
  /-- Where the index is written, what is read of it agrees with the rest. -/
  index : o.indexResult = .ok () → ∃ ix, s.ReadsIndex o.volume ix ∧
    ix.Agrees s.root o.settled (o.manifest s) o.volume
  /-- There is a warning on each item left out, and a last one if the index is not written;
  otherwise the manifest has the path of the index. -/
  warnings :
    (o.indexResult = .ok () ∧
      (o.manifest s).warnings = (o.manifest s).omitted.map omissionWarning ∧
      (o.manifest s).indexPath = some s.indexPath) ∨
    (∃ error, o.indexResult = .error error ∧
      (o.manifest s).warnings = (o.manifest s).omitted.map omissionWarning
        ++ ["evidence index not written: " ++ error.message] ∧
      (o.manifest s).indexPath = none)

variable {s : Store} {stamp : Stamp} {items : List Evidence} {turns : List Nat}

section

variable {σ : Type} [FileSystem σ] {v : σ}

/-! ### Kept items in the manifest -/

/-- An item that is kept has another id than all items before it. -/
private theorem pairwise_id_settled (s : Store) (items : List Evidence)
    (stage : Nat → WriteTask.Stage) :
    ((s.requests items).mapIdx (settleAt stage)).Pairwise fun a b =>
      ∀ kept, b.result = .ok kept → a.item.id ≠ b.item.id := by
  rw [List.pairwise_iff_getElem]
  intro i j hi hj hij kept hkept
  rw [List.getElem_mapIdx] at hkept
  rw [List.getElem_mapIdx, List.getElem_mapIdx, item_settleAt, item_settleAt]
  -- Only an item with a place is kept, and a place is granted to new ids only.
  obtain ⟨t, ht, -⟩ := Except.bind_eq_ok_iff.1 hkept
  rw [List.length_mapIdx] at hi hj
  have hpairwise := List.pairwise_iff_getElem.1 (Target.pairwise_id_claim s.root items)
  exact hpairwise i j hi hj hij t ht

/-- Where an item that is kept has another id than all before it, no two entries have the same
key. -/
private theorem nodup_entries {settled : List Settled}
    (h : settled.Pairwise fun a b => ∀ kept, b.result = .ok kept → a.item.id ≠ b.item.id) :
    ((settled.filterMap entry?).map (·.1)).Nodup := by
  -- Entries come from kept items alone, in the order of the items.
  refine List.pairwise_map.2 (List.pairwise_filterMap.2 (h.imp ?_))
  rintro a b hne ⟨id, p⟩ ha ⟨id', p'⟩ hb
  unfold entry? at ha hb
  cases hresult : a.result with
  | error error =>
    rw [hresult] at ha
    exact nomatch ha
  | ok kept =>
    cases hresult' : b.result with
    | error error =>
      rw [hresult'] at hb
      exact nomatch hb
    | ok kept' =>
      rw [hresult] at ha
      rw [hresult'] at hb
      cases ha
      cases hb
      exact hne kept' hresult'

/-- No two items that are kept have the same id. -/
theorem nodup_keys_entries (s : Store) (stamp : Stamp) (items : List Evidence) (turns : List Nat)
    (v : σ) :
    (((s.writeInTurns stamp items turns v).settled.filterMap entry?).map (·.1)).Nodup := by
  unfold writeInTurns
  rw [settled_finish]
  exact nodup_entries (pairwise_id_settled s items _)

/-- Where no two entries have the same key, every item that is kept is found under its id. -/
private theorem get?_manifestOf {settled : List Settled} {x : Settled} {kept : Kept}
    (hnodup : ((settled.filterMap entry?).map (·.1)).Nodup) (hmem : x ∈ settled)
    (hkept : x.result = .ok kept) :
    (manifestOf settled).entries.get? x.item.id = some kept.target.path := by
  refine Table.get?_ofList_of_nodup hnodup (List.mem_filterMap.2 ⟨x, hmem, ?_⟩)
  unfold entry?
  rw [hkept]

/-- Before the index is entered, every item that is kept stands under its id. -/
theorem get?_manifestOf_of_kept {x : Settled} {kept : Kept}
    (hmem : x ∈ (s.writeInTurns stamp items turns v).settled) (hkept : x.result = .ok kept) :
    (manifestOf (s.writeInTurns stamp items turns v).settled).entries.get? x.item.id
      = some kept.target.path :=
  get?_manifestOf (nodup_keys_entries s stamp items turns v) hmem hkept

/-- An item that is kept is named by the manifest, unless its id is the key of the index. -/
theorem get?_manifest_of_kept {x : Settled} {kept : Kept}
    (hmem : x ∈ (s.writeInTurns stamp items turns v).settled) (hkept : x.result = .ok kept)
    (hid : x.item.id ≠ Manifest.indexKey) :
    ((s.writeInTurns stamp items turns v).manifest s).get? x.item.id = some kept.target.path := by
  have hget := get?_manifestOf_of_kept hmem hkept
  generalize s.writeInTurns stamp items turns v = o at hget ⊢
  unfold Written.manifest Manifest.get?
  cases o.indexResult with
  | error error => exact hget
  | ok =>
    change ((manifestOf o.settled).entries.insert _ _).get? _ = _
    rw [Table.get?_insert, if_neg hid]
    exact hget

/-! ### What can be written counts as written -/

/-- An item whose record is read back from its file is kept. -/
theorem exists_kept_of_isOk {e : Evidence} {t : Target} {i : Nat} (hreads : e.ReadsBack)
    (hown : ∀ {read}, ((itemTask i e t).run v).1 = .ok read → read = (itemTask i e t).bytes)
    (hwritten : ((itemTask i e t).run v).1.isOk = true) :
    ∃ kept, (writeItem v i e (.ok t)).1 = ⟨e, .ok kept⟩ ∧ kept.target = t := by
  rw [writeItem_ok]
  cases hresult : ((itemTask i e t).run v).1 with
  | error fault =>
    rw [hresult] at hwritten
    exact nomatch hwritten
  | ok read =>
    -- What has been read is what was to be written, so that all checks pass.
    rw [hown hresult, bytes_itemTask]
    obtain ⟨kept, hkept⟩ := (exists_settleItem_iff e t rfl).2 hreads
    obtain ⟨_, -, -, hplace⟩ := settleItem_eq_ok hkept
    exact ⟨kept, congrArg (Settled.mk e) hkept, congrArg Kept.target hplace⟩

/-- An index that is read back from its file counts as written. -/
theorem indexResult_of_isOk {settled : List Settled} (hstamp : stamp.Legible)
    (hlength : settled.length < UInt64.size)
    (hown : ∀ {read}, ((s.indexTask stamp items settled).run v).1 = .ok read →
      read = (s.indexTask stamp items settled).bytes)
    (hwritten : ((s.indexTask stamp items settled).run v).1.isOk = true) :
    (s.finish stamp items settled v).indexResult = .ok () := by
  rw [indexResult_finish]
  cases hresult : ((s.indexTask stamp items settled).run v).1 with
  | error fault =>
    rw [hresult] at hwritten
    exact nomatch hwritten
  | ok read =>
    rw [hown hresult, bytes_indexTask]
    exact settleIndex_bytes (ofBytes_indexOf hstamp hlength) _

end

variable {v : Volume}

/-! ### Kept items in the index -/

/-- What a dimension lists is an item that is kept. -/
private theorem of_listing?_eq_some {d : Dimension} {x : Settled} {e : IndexEntry}
    (h : listing? d x = some e) : ∃ kept, x.result = .ok kept ∧
      e = ⟨x.item.id, x.item.criterionId, kept.target.relative, kept.digest⟩ := by
  unfold listing? at h
  cases hresult : x.result with
  | error error =>
    rw [hresult] at h
    exact nomatch h
  | ok kept =>
    rw [hresult] at h
    simp only [Option.ite_none_right_eq_some, Option.some.injEq] at h
    exact ⟨kept, rfl, h.2.symm⟩

/-- A dimension lists its items that are kept, in their order. -/
private theorem map_listing (d : Dimension) (settled : List Settled) :
    (settled.filterMap (listing? d)).map (fun e => (e.id, e.criterionId))
      = (settled.filter fun x => x.result.isOk && x.item.dimension = d).map
          fun x => (x.item.id, x.item.criterionId) := by
  -- Both sides go through the items one by one and skip the same ones.
  induction settled with
  | nil => rfl
  | cons x settled ih =>
    cases hresult : x.result with
    | error error =>
      have hlisting : listing? d x = none := by
        unfold listing?
        rw [hresult]
      rw [List.filterMap_cons_none hlisting, ih, List.filter_cons_of_neg]
      rw [hresult]
      exact Bool.false_ne_true
    | ok kept =>
      have hlisting : listing? d x = if x.item.dimension = d then
          some ⟨x.item.id, x.item.criterionId, kept.target.relative, kept.digest⟩ else none := by
        unfold listing?
        rw [hresult]
      have hok : x.result.isOk = true := by
        rw [hresult]
        rfl
      by_cases hd : x.item.dimension = d
      · rw [if_pos hd] at hlisting
        rw [List.filterMap_cons_some hlisting, List.map_cons, ih, List.filter_cons_of_pos]
        · rfl
        · rw [hok, decide_eq_true hd]
          rfl
      · rw [if_neg hd] at hlisting
        rw [List.filterMap_cons_none hlisting, ih, List.filter_cons_of_neg]
        rw [decide_eq_false hd, Bool.and_false]
        exact Bool.false_ne_true

/-- The omissions are those of the items that are not kept, in their order. -/
private theorem map_omitted (settled : List Settled) :
    (settled.filterMap omission?).map (·.id)
      = (settled.filter fun x => !x.result.isOk).map (·.item.id) := by
  induction settled with
  | nil => rfl
  | cons x settled ih =>
    rw [List.filterMap_cons, List.filter_cons]
    unfold omission?
    cases x.result with
    | error error => exact congrArg (x.item.id :: ·) ih
    | ok kept => exact ih

/-- Where the tasks of the items have taken turns, their index agrees with the manifest and the
volume. -/
private theorem agrees_indexOf (hids : ∀ e ∈ items, e.id ≠ Manifest.indexKey) :
    let o := s.writeInTurns stamp items turns v
    (indexOf stamp o.settled).Agrees s.root o.settled (o.manifest s) o.volume := by
  intro o
  have hitems : o.settled.map (·.item) = items := s.items_writeInTurns stamp items turns v
  -- An entry is that of an item that is kept, at the place that has been granted to it.
  have hentry {d : Dimension} {e : IndexEntry} (he : e ∈ (indexOf stamp o.settled).listed d) :
      ∃ x ∈ o.settled, ∃ kept, x.result = .ok kept ∧ e.id = x.item.id ∧ e.digest = kept.digest ∧
        s.root.join e.path = kept.target.path := by
    rw [listed_indexOf] at he
    obtain ⟨x, hx, hlisting⟩ := List.mem_filterMap.1 he
    obtain ⟨kept, hkept, rfl⟩ := of_listing?_eq_some hlisting
    obtain ⟨hrequest, -, -, -⟩ := of_kept hx hkept
    refine ⟨x, hx, kept, hkept, rfl, rfl, ?_⟩
    exact (congrArg Target.path (Target.of_mem_claim hrequest).1.eq_below).symm
  have hnamed {x : Settled} {kept : Kept} (hx : x ∈ o.settled) (hkept : x.result = .ok kept) :
      (o.manifest s).get? x.item.id = some kept.target.path :=
    get?_manifest_of_kept hx hkept (hids _ (hitems ▸ List.mem_map_of_mem hx))
  have hstands {x : Settled} {kept : Kept} (hx : x ∈ o.settled) (hkept : x.result = .ok kept) :
      ∃ bytes, o.volume.contents kept.target.path = .ok bytes ∧ kept.digest = Sha256.hex bytes := by
    obtain ⟨-, hcontents, -⟩ := contents_of_kept hx hkept
    obtain ⟨-, hdigest, -, -⟩ := of_kept hx hkept
    exact ⟨_, hcontents, hdigest⟩
  -- From here on nothing depends on how the items have been settled.
  clear_value o
  refine ⟨fun d => ?_, fun {d e} he => ?_, fun {d e} he => ?_, counted_indexOf stamp o.settled,
    (omitted_manifest s o).symm⟩
  · rw [listed_indexOf]
    exact map_listing d o.settled
  · obtain ⟨x, hx, kept, hkept, hid, -, hplace⟩ := hentry he
    rw [hid, hplace]
    exact hnamed hx hkept
  · obtain ⟨x, hx, kept, hkept, -, hdigest, hplace⟩ := hentry he
    rw [hplace, hdigest]
    exact hstands hx hkept

/-! ### The index on the volume -/

/-- An index that counts as written is read back from the volume. -/
private theorem readsIndex_finish {settled : List Settled}
    (hlength : settled.length < UInt64.size)
    (h : (s.finish stamp items settled v).indexResult = .ok ()) :
    s.ReadsIndex (s.finish stamp items settled v).volume (indexOf stamp settled) := by
  obtain ⟨-, hrun⟩ := (s.indexTask stamp items settled).run_spec v
  rw [indexResult_finish] at h
  obtain ⟨readBack, hread, -, parsed, hparsed, hid⟩ := settleIndex_eq_ok h
  -- The index is the last file written, so that it stands there as it has been read back.
  obtain ⟨heq, hcontents⟩ := hrun hread
  rw [target_indexTask, ← heq] at hcontents
  rw [volume_finish]
  refine ⟨readBack, hcontents, ?_⟩
  have hcount : (indexOf stamp settled).totalEntries < UInt64.size :=
    Nat.lt_of_le_of_lt (totalEntries_indexOf_le stamp settled) hlength
  rw [bytes_indexTask] at heq
  rw [hparsed, Index.eq_of_ofBytes hcount (heq ▸ hparsed) hid]

/-! ### Accounting for all items -/

/-- Whatever the turns are in which the tasks of the items are done, all items are accounted for. -/
theorem accounted_writeInTurns (hids : ∀ e ∈ items, e.id ≠ Manifest.indexKey)
    (hlength : items.length < UInt64.size) :
    s.Accounted items (s.writeInTurns stamp items turns v) := by
  have hitems := s.items_writeInTurns stamp items turns v
  refine ⟨hitems, ?_, fun hwritten => ?_, ?_⟩
  · rw [omitted_manifest]
    exact map_omitted _
  · refine ⟨indexOf stamp (s.writeInTurns stamp items turns v).settled, ?_, agrees_indexOf hids⟩
    have hsettled : (s.writeInTurns stamp items turns v).settled.length < UInt64.size := by
      rw [← List.length_map (·.item), hitems]
      exact hlength
    -- The number of results is that of the items, whatever has become of them.
    unfold writeInTurns at hwritten hsettled ⊢
    rw [settled_finish] at hsettled ⊢
    exact readsIndex_finish hsettled hwritten
  · generalize s.writeInTurns stamp items turns v = o
    unfold Written.manifest
    cases hresult : o.indexResult with
    | error error => exact .inr ⟨error, rfl, rfl, rfl⟩
    | ok => exact .inl ⟨rfl, rfl, rfl⟩

/-- After every attempt to keep items, one after another or in turns, all items are accounted for,
unless one of them has the key of the index for its id. There are no more of them than a list can
hold in memory. -/
theorem persist_accounted (s : Store) (stamp : Stamp) (items : List Evidence) (v : Volume)
    (j : Journal) (hids : ∀ e ∈ items, e.id ≠ Manifest.indexKey)
    (hlength : items.length < UInt64.size) :
    (let o := s.write stamp items v
     (s.persist stamp items).result v j = (o.manifest s, o.volume) ∧ s.Accounted items o) ∧
    ∀ turns,
      let o := s.writeInTurns stamp items (turns items) v
      (s.persistInTurns stamp turns items).result v j = (o.manifest s, o.volume) ∧
        s.Accounted items o := by
  refine ⟨⟨result_persist s stamp items v j, ?_⟩,
    fun turns => ⟨result_persistInTurns s stamp turns items v j, ?_⟩⟩
  · rw [write_eq_writeInTurns]
    exact accounted_writeInTurns hids hlength
  · exact accounted_writeInTurns hids hlength

/-- Of three items two want the same place; all of them are accounted for. -/
theorem persist_accounted_of_rivals :
    let s := Store.ofRoot ⟨"evidence"⟩
    let items : List Evidence := [
      ⟨"a-01", "a", .testing, .high, "", .null, ⟨"a.json"⟩⟩,
      ⟨"b-01", "b", .testing, .high, "", .null, ⟨"./a.json"⟩⟩,
      ⟨"c-01", "c", .documentation, .high, "", .null, ⟨"c.json"⟩⟩]
    let stamp : Stamp := ⟨.nil, ⟨"1970-01-01T00:00:00Z"⟩⟩
    (∀ e ∈ items, e.id ≠ Manifest.indexKey) ∧ items.length < UInt64.size ∧
      s.Accounted items (s.write stamp items Volume.empty) := by
  intro s items stamp
  have hids : ∀ e ∈ items, e.id ≠ Manifest.indexKey := by decide +kernel
  have hlength : items.length < UInt64.size := by decide
  exact ⟨hids, hlength, (persist_accounted s stamp items .empty .empty hids hlength).1.2⟩

/-- Where all items are accounted for and the index is written, the file of an item that is kept can
be read where the manifest says. -/
private theorem Accounted.exists_contents {σ : Type} [FileSystem σ] {o : Written σ} {x : Settled}
    (h : s.Accounted items o) (hindex : o.indexResult = .ok ()) (hmem : x ∈ o.settled)
    (hkept : x.result.isOk = true) {p : Path} (hplace : (o.manifest s).get? x.item.id = some p) :
    ∃ bytes, FileSystem.contents o.volume p = .ok bytes := by
  obtain ⟨ix, -, hagrees⟩ := h.index hindex
  -- The item is kept, so that its dimension lists it.
  have hlisted : (x.item.id, x.item.criterionId)
      ∈ (ix.listed x.item.dimension).map fun e => (e.id, e.criterionId) := by
    rw [hagrees.listed]
    refine List.mem_map.2 ⟨x, List.mem_filter.2 ⟨hmem, ?_⟩, rfl⟩
    rw [hkept, decide_eq_true rfl]
    rfl
  obtain ⟨e, he, hid⟩ := List.mem_map.1 hlisted
  have hlocated := hagrees.located he
  rw [(Prod.mk.inj hid).1, hplace] at hlocated
  obtain ⟨bytes, hbytes, -⟩ := hagrees.digest he
  rw [← Option.some.inj hlocated] at hbytes
  exact ⟨bytes, hbytes⟩

/-- On a disk with links, what is kept can get lost: the link on the way to the first item's file
gives way to the file of the second item. Both are kept and the index is written, but the path of
the first one does not lead to a file any more. -/
theorem unaccounted_of_link :
    let s := Store.ofRoot ⟨"s"⟩
    let d := (Disk.ofVolume ((Volume.empty.addFolder [] "s").addFolder ["s"] "a")).addLink
      ["s"] "l" ⟨"a"⟩
    let items : List Evidence := [
      ⟨"a-01", "a", .testing, .high, "", .null, ⟨"l/x.json"⟩⟩,
      ⟨"b-01", "b", .testing, .high, "", .null, ⟨"l"⟩⟩]
    let stamp : Stamp := ⟨.nil, ⟨"1970-01-01T00:00:00Z"⟩⟩
    let o := s.write stamp items d
    (∀ e ∈ items, e.id ≠ Manifest.indexKey) ∧ items.length < UInt64.size ∧
      o.indexResult = .ok () ∧ ¬ s.Accounted items o := by
  intro s d items stamp o
  set a : Evidence := ⟨"a-01", "a", .testing, .high, "", .null, ⟨"l/x.json"⟩⟩
  set b : Evidence := ⟨"b-01", "b", .testing, .high, "", .null, ⟨"l"⟩⟩
  set t := Target.below s.root ["l", "x.json"]
  set u := Target.below s.root ["l"]
  have hids : ∀ e ∈ items, e.id ≠ Manifest.indexKey := by decide +kernel
  have hclaim : Target.claim s.root items = [.ok t, .ok u] := by decide +kernel
  have hrequests : s.requests items = [(a, .ok t), (b, .ok u)] :=
    requests_of_claim hclaim
  have hindex : o.indexResult = .ok () := by
    change (s.write stamp items d).indexResult = .ok ()
    rw [write_eq_finish, hrequests]
    exact indexResult_of_isOk ⟨by decide +kernel, by decide +kernel⟩ (by decide +kernel)
      (Disk.eq_of_run _ _) (by decide +kernel)
  -- The record of the first item is still at its place when it is read back.
  have hreads : a.ReadsBack := (Evidence.readsBack_iff a).2 (by decide)
  obtain ⟨kept, hkept, htarget⟩ := exists_kept_of_isOk (v := d) (i := 0) (t := t) hreads
    (Disk.eq_of_run _ _) (by decide +kernel)
  have hmem : ⟨a, .ok kept⟩ ∈ (s.write stamp items d).settled := by
    rw [write_eq_finish, settled_finish, hrequests, writeItems_cons, hkept]
    exact List.mem_cons_self
  have hplace : ((s.write stamp items d).manifest s).get? a.id = some t.path := by
    rw [write_eq_writeInTurns] at hmem ⊢
    rw [get?_manifest_of_kept hmem rfl (hids a List.mem_cons_self), htarget]
  -- The file of the second item has taken the place of the link.
  have hgone : (FileSystem.contents o.volume t.path).isOk = false := by decide +kernel
  refine ⟨hids, by decide, hindex, fun haccounted => ?_⟩
  obtain ⟨bytes, hbytes⟩ := haccounted.exists_contents hindex hmem rfl hplace
  rw [hbytes] at hgone
  exact nomatch hgone

end Store

end Scorecard
