import Scorecard.Proofs.Writing

/-!
# What is kept stays kept

An item that counts as kept has its file in the end, with the bytes of its record: no other item
has its place, and the index has a place of its own. So what a manifest names is there, whatever
has been written after it.

* `Store.contents_of_kept`: the file of an item that is kept.
* `Manifest.Intact`: what a manifest names is there.
* `Store.persist_intact`: the manifest of every attempt to keep items is intact.
-/

namespace Scorecard

namespace Store

variable {s : Store} {stamp : Stamp} {items : List Evidence} {v : Volume}

/-! ### What is kept -/

theorem location_indexPath (s : Store) :
    s.indexPath.location = s.root.location ++ [Target.indexName] := by
  have hname : ∀ n ∈ [Target.indexName], Path.IsName n := by decide
  rw [← Path.location_below s.root hname]
  unfold indexPath Path.ofNames
  rw [String.intercalate_singleton]

/-- The index has a place of its own. -/
theorem location_ne_indexPath {t : Target} (h : Target.Granted s.root t) :
    t.path.location ≠ s.indexPath.location := by
  rw [h.location, location_indexPath]
  -- Otherwise the names of the place would be the name of the index.
  intro heq
  apply h.ne_index
  rw [List.append_cancel_left heq]
  rfl

/-- Writing the index leaves the files of the items alone. -/
theorem contents_finish {settled : List Settled} {t : Target} {bytes : ByteArray}
    (ht : Target.Granted s.root t) (h : v.contents t.path = .ok bytes) :
    (s.finish stamp items settled v).volume.contents t.path = .ok bytes := by
  obtain ⟨hconfined, -⟩ := (s.indexTask stamp items settled).run_spec v
  -- The task of the index touches no place but its own.
  have hne : ¬ t.path.location = (s.indexTask stamp items settled).target.location := by
    rw [target_indexTask]
    exact location_ne_indexPath ht
  rw [volume_finish]
  exact hconfined.grows.contents hne h

/-- An index that counts as written is there, and is not empty. -/
theorem contents_indexPath {settled : List Settled}
    (h : (s.finish stamp items settled v).indexResult = .ok ()) :
    ∃ bytes, (s.finish stamp items settled v).volume.contents s.indexPath = .ok bytes ∧
      bytes.isEmpty = false := by
  obtain ⟨-, hrun⟩ := (s.indexTask stamp items settled).run_spec v
  rw [indexResult_finish] at h
  -- The check has refused empty files.
  obtain ⟨readBack, hread, hcheck, -⟩ := settleIndex_eq_ok h
  obtain ⟨heq, hcontents⟩ := hrun hread
  rw [target_indexTask, ← heq] at hcontents
  rw [volume_finish]
  exact ⟨readBack, hcontents, isEmpty_of_checkReadBack hcheck⟩

/-- An item that is kept has been granted its place, and its task has read back what passes the
check. -/
theorem request_of_kept {turns : List Nat} {i : Nat} {settled : Settled} {kept : Kept}
    (hi : (s.writeInTurns stamp items turns v).settled[i]? = some settled)
    (hkept : settled.result = .ok kept) :
    (s.requests items)[i]? = some (settled.item, .ok kept.target) ∧
      ∃ readBack,
        ((Progress.run (tasks (s.requests items)) (.start v) turns).stage i).result = .ok readBack ∧
        checkReadBack kept.target.path (EvidenceRecord.ofEvidence settled.item).bytes readBack
          = .ok () ∧
        kept.digest = Sha256.hex readBack := by
  unfold writeInTurns at hi
  rw [settled_finish, List.getElem?_mapIdx, Option.map_eq_some_iff] at hi
  obtain ⟨⟨e, claimed⟩, hget, rfl⟩ := hi
  -- Without a place an item has no result but the error of its claim.
  obtain ⟨t, hclaimed, hsettle⟩ := Except.bind_eq_ok_iff.1 hkept
  change claimed = .ok t at hclaimed
  subst hclaimed
  obtain ⟨readBack, hread, hcheck, rfl⟩ := settleItem_eq_ok hsettle
  rw [bytes_itemTask] at hcheck
  exact ⟨hget, readBack, hread, hcheck, rfl⟩

/-- An item that is kept has been granted its place, and when all tasks have had their turns its
record stands there. -/
theorem of_kept {turns : List Nat} {settled : Settled} {kept : Kept}
    (hmem : settled ∈ (s.writeInTurns stamp items turns v).settled)
    (hkept : settled.result = .ok kept) :
    let bytes := (EvidenceRecord.ofEvidence settled.item).bytes
    (settled.item, .ok kept.target) ∈ s.requests items ∧ kept.digest = Sha256.hex bytes ∧
      (Progress.run (tasks (s.requests items)) (.start v) turns).volume.contents kept.target.path
        = .ok bytes ∧ bytes.isEmpty = false := by
  obtain ⟨i, hi⟩ := List.getElem?_of_mem hmem
  obtain ⟨hget, readBack, hread, hcheck, hdigest⟩ := request_of_kept hi hkept
  -- What the task of the item has read back is sure, whatever the other tasks have done.
  have hassured := (Progress.assured_start _ v).run (apart_tasks s items) turns
    (tasks_eq_some_iff.2 ⟨settled.item, kept.target, hget, rfl⟩)
  obtain ⟨heq, hcontents⟩ := hassured.of_result hread
  rw [target_itemTask, bytes_itemTask] at hcontents
  rw [bytes_itemTask] at heq
  exact ⟨List.mem_of_getElem? hget, heq ▸ hdigest, hcontents,
    heq ▸ isEmpty_of_checkReadBack hcheck⟩

/-- An item that is kept is the first with its id, and its file is there in the end, with the
bytes of its record. -/
theorem contents_of_kept {turns : List Nat} {settled : Settled} {kept : Kept}
    (hmem : settled ∈ (s.writeInTurns stamp items turns v).settled)
    (hkept : settled.result = .ok kept) :
    items.find? (·.id = settled.item.id) = some settled.item ∧
      (s.writeInTurns stamp items turns v).volume.contents kept.target.path
        = .ok (EvidenceRecord.ofEvidence settled.item).bytes ∧
      (EvidenceRecord.ofEvidence settled.item).bytes.isEmpty = false := by
  obtain ⟨hrequest, -, hcontents, hne⟩ := of_kept hmem hkept
  obtain ⟨hgranted, hfirst⟩ := Target.of_mem_claim hrequest
  refine ⟨hfirst, ?_, hne⟩
  unfold writeInTurns
  exact contents_finish hgranted hcontents

end Store

/-! ### Manifests -/

/-- A manifest verifies if every file it names is there and not empty. -/
theorem Manifest.verify_eq_ok {m : Manifest} {v : Volume}
    (h : ∀ {id p}, m.get? id = some p → ∃ bytes, v.contents p = .ok bytes ∧ bytes.isEmpty = false) :
    m.verify v = .ok () := by
  refine Except.forM_eq_ok_iff.2 ?_
  rintro ⟨id, p⟩ hmem
  obtain ⟨bytes, hcontents, hne⟩ := h ((m.entries.mem_entries_iff id p).1 hmem)
  change verifyEntry v id p = .ok ()
  unfold verifyEntry
  rw [hcontents]
  simp only
  rw [hne]
  rfl

/-- What a manifest names is there: under the id of an item the record of the first item with that
id, and nothing that is missing or empty. -/
structure Manifest.Intact (items : List Evidence) (m : Manifest) (v : Volume) : Prop where
  record : ∀ {id p}, id ≠ Manifest.indexKey → m.get? id = some p →
    ∃ e, items.find? (·.id = id) = some e ∧
      v.contents p = .ok (EvidenceRecord.ofEvidence e).bytes
  verified : m.verify v = .ok ()

namespace Store

/-- Whatever the turns are in which the tasks of the items are done, what the manifest names is
there in the end. -/
theorem intact_writeInTurns (s : Store) (stamp : Stamp) (items : List Evidence) (turns : List Nat)
    (v : Volume) :
    ((s.writeInTurns stamp items turns v).manifest s).Intact items
      (s.writeInTurns stamp items turns v).volume := by
  refine ⟨fun {id p} hid hget => ?_, Manifest.verify_eq_ok fun {id p} hget => ?_⟩
  · rcases of_get?_manifest hget with ⟨-, hindex, -⟩ | ⟨settled, hmem, kept, hkept, rfl, rfl⟩
    · -- The entry of the index is not that of an item.
      exact absurd hindex hid
    · obtain ⟨hfirst, hcontents, -⟩ := contents_of_kept hmem hkept
      exact ⟨settled.item, hfirst, hcontents⟩
  · rcases of_get?_manifest hget with ⟨hindex, -, rfl⟩ | ⟨settled, hmem, kept, hkept, rfl, rfl⟩
    · unfold writeInTurns at hindex ⊢
      exact contents_indexPath hindex
    · obtain ⟨-, hcontents, hne⟩ := contents_of_kept hmem hkept
      exact ⟨_, hcontents, hne⟩

/-- What the manifest of an attempt to keep items names is there in the end: the record of the
first item with the id, whatever has been written after it. The tasks of the items may take turns
as they like. -/
theorem persist_intact (s : Store) (stamp : Stamp) (items : List Evidence) (v : Volume)
    (j : Journal) :
    ((s.persist stamp items).result v j).1.Intact items ((s.persist stamp items).result v j).2 ∧
      ∀ turns, ((s.persistInTurns stamp turns items).result v j).1.Intact items
        ((s.persistInTurns stamp turns items).result v j).2 := by
  constructor
  · rw [result_persist, write_eq_writeInTurns]
    simp only
    exact intact_writeInTurns s stamp items (Progress.inOrder 0 items.length) v
  · intro turns
    rw [result_persistInTurns]
    simp only
    exact intact_writeInTurns s stamp items (turns items) v

end Store

end Scorecard
