import Mathlib.Data.List.Nodup
import Scorecard.Proofs.Table
import Scorecard.Proofs.Target
import Scorecard.Proofs.Turns
import Scorecard.Store.Persist

/-!
# Writing in turns

A store writes the files of its items one after another, or several at a time: the tasks of writing
them take turns, and no two of them are about the same place, as no names are granted twice. What
has become of an item is settled by how far its task has come, and the manifest says it.

* `Store.writeInTurns`, `Store.persistInTurns`: the tasks take turns.
* `Store.apart_tasks`: the tasks do not get into each other's way.
* `Store.write_eq_writeInTurns`: writing one item after another is a case of this.
* `Store.of_get?_manifest`, `Store.exists_get?_manifest_iff`: what the manifest names.
-/

namespace Scorecard

/-- What comes out of work on a file system: its result, and the file system afterwards. -/
def FiledOn.result {σ α : Type} (x : FiledOn σ α) (v : σ) (j : Journal) : α × σ :=
  ((x.run v).run j).1

namespace Store

section

variable {σ : Type} [FileSystem σ] {s : Store} {stamp : Stamp} {items : List Evidence} {v : σ}
  {ws : List (Evidence × Except StoreError Target)} {stage : Nat → WriteTask.Stage}

/-! ### Results -/

/-- Bytes that pass the check are not empty. -/
theorem isEmpty_of_checkReadBack {p : Path} {written readBack : ByteArray}
    (h : checkReadBack p written readBack = .ok ()) : readBack.isEmpty = false := by
  unfold checkReadBack at h
  obtain ⟨hne, -⟩ := Except.ite_error_eq_ok_iff.1 h
  exact Bool.eq_false_iff.2 hne

/-- An item is kept if its file has been read back, and what has been read back passes the check. -/
theorem settleItem_eq_ok {e : Evidence} {t : Target} {written : ByteArray}
    {result : Except Volume.Fault ByteArray} {kept : Kept}
    (h : settleItem e t written result = .ok kept) :
    ∃ readBack, result = .ok readBack ∧ checkReadBack t.path written readBack = .ok () ∧
      kept = ⟨t, Sha256.hex readBack⟩ := by
  unfold settleItem at h
  obtain ⟨readBack, hread, h⟩ := Except.bind_eq_ok_iff.1 h
  obtain ⟨⟨⟩, hcheck, h⟩ := Except.bind_eq_ok_iff.1 h
  obtain ⟨record, -, h⟩ := Except.bind_eq_ok_iff.1 h
  -- The checks that follow the reading change nothing of what is kept.
  split at h
  · exact ⟨readBack, Except.mapError_eq_ok_iff.1 hread, hcheck, (Except.ok.inj h).symm⟩
  · exact nomatch h

/-- An index is written if it has been read back, and what has been read back passes the check and
is an index with the same identity. -/
theorem settleIndex_eq_ok {ix : Index} {p : Path} {result : Except Volume.Fault ByteArray}
    (h : settleIndex ix p result = .ok ()) :
    ∃ readBack, result = .ok readBack ∧ checkReadBack p ix.bytes readBack = .ok () ∧
      ∃ parsed, Decode.ofBytes Index.decode readBack = .ok parsed ∧ parsed.runId = ix.runId := by
  unfold settleIndex at h
  obtain ⟨readBack, hread, h⟩ := Except.bind_eq_ok_iff.1 h
  obtain ⟨⟨⟩, hcheck, h⟩ := Except.bind_eq_ok_iff.1 h
  obtain ⟨parsed, hparsed, h⟩ := Except.bind_eq_ok_iff.1 h
  refine ⟨readBack, Except.mapError_eq_ok_iff.1 hread, hcheck, parsed,
    Except.mapError_eq_ok_iff.1 hparsed, ?_⟩
  split at h
  · next hid => exact hid
  · exact nomatch h

/-! ### Writing in turns -/

/-- The items with the answers to their claims. -/
def requests (s : Store) (items : List Evidence) : List (Evidence × Except StoreError Target) :=
  items.zip (Target.claim s.root items)

/-- The tasks of writing the files of items, one for every place granted. -/
def tasks (ws : List (Evidence × Except StoreError Target)) (i : Nat) : Option WriteTask :=
  match ws[i]? with
  | some (e, .ok t) => some (itemTask i e t)
  | _ => none

/-- What has become of an item when its task has come to a stage. -/
def settleAt (stage : Nat → WriteTask.Stage) (i : Nat)
    (w : Evidence × Except StoreError Target) : Settled :=
  ⟨w.1, w.2.bind fun t => settleItem w.1 t (itemTask i w.1 t).bytes (stage i).result⟩

/-- What comes of writing once the items are settled: the index is written last. -/
def finish (s : Store) (stamp : Stamp) (items : List Evidence) (settled : List Settled)
    (v : σ) : Written σ :=
  let index := indexOf stamp settled
  let (indexResult, volume) := s.writeIndex v items.length index
  { settled, index, indexResult, volume }

/-- What comes of writing when the tasks of the items take turns; the index is written when all
of them are done. A task that does not come to its end does not keep its item. -/
def writeInTurns (s : Store) (stamp : Stamp) (items : List Evidence) (turns : List Nat)
    (v : σ) : Written σ :=
  let last := Progress.run (tasks (s.requests items)) (.start v) turns
  s.finish stamp items ((s.requests items).mapIdx (settleAt last.stage)) last.volume

/-- Keeps what it can of the items, whose tasks take turns, and says what became of each. -/
def persistInTurns (s : Store) (stamp : Stamp) (turns : List Evidence → List Nat)
    (items : List Evidence) : FiledOn σ Manifest := do
  let o := s.writeInTurns stamp items (turns items) (← get)
  s.report o
  set o.volume
  return o.manifest s

/-- The task of writing the index. -/
def indexTask (s : Store) (stamp : Stamp) (items : List Evidence) (settled : List Settled) :
    WriteTask :=
  ⟨items.length, s.indexPath, (indexOf stamp settled).bytes⟩

theorem target_itemTask (i : Nat) (e : Evidence) (t : Target) :
    (itemTask i e t).target = t.path := by
  simp only [itemTask]

theorem bytes_itemTask (i : Nat) (e : Evidence) (t : Target) :
    (itemTask i e t).bytes = (EvidenceRecord.ofEvidence e).bytes := by
  simp only [itemTask]

theorem item_settleAt (stage : Nat → WriteTask.Stage) (i : Nat)
    (w : Evidence × Except StoreError Target) : (settleAt stage i w).item = w.1 := by
  simp only [settleAt]

/-- What has become of an item with a place is settled by the result of its task. -/
theorem settleAt_ok (stage : Nat → WriteTask.Stage) (i : Nat) (e : Evidence) (t : Target) :
    settleAt stage i (e, .ok t)
      = ⟨e, settleItem e t (EvidenceRecord.ofEvidence e).bytes (stage i).result⟩ := by
  rw [← bytes_itemTask i e t]
  rfl

theorem target_indexTask (s : Store) (stamp : Stamp) (items : List Evidence)
    (settled : List Settled) : (s.indexTask stamp items settled).target = s.indexPath := by
  simp only [indexTask]

theorem bytes_indexTask (s : Store) (stamp : Stamp) (items : List Evidence)
    (settled : List Settled) :
    (s.indexTask stamp items settled).bytes = (indexOf stamp settled).bytes := by
  simp only [indexTask]

theorem finish_eq (s : Store) (stamp : Stamp) (items : List Evidence)
    (settled : List Settled) (v : σ) :
    s.finish stamp items settled v =
      { settled
        index := indexOf stamp settled
        indexResult := settleIndex (indexOf stamp settled) s.indexPath
          ((s.indexTask stamp items settled).run v).1
        volume := ((s.indexTask stamp items settled).run v).2 } := by
  unfold finish writeIndex indexTask
  simp only

theorem settled_finish (s : Store) (stamp : Stamp) (items : List Evidence)
    (settled : List Settled) (v : σ) :
    (s.finish stamp items settled v).settled = settled := by
  rw [finish_eq]

theorem index_finish (s : Store) (stamp : Stamp) (items : List Evidence)
    (settled : List Settled) (v : σ) :
    (s.finish stamp items settled v).index = indexOf stamp settled := by
  rw [finish_eq]

theorem indexResult_finish (s : Store) (stamp : Stamp) (items : List Evidence)
    (settled : List Settled) (v : σ) :
    (s.finish stamp items settled v).indexResult =
      settleIndex (indexOf stamp settled) s.indexPath
        ((s.indexTask stamp items settled).run v).1 := by
  rw [finish_eq]

theorem volume_finish (s : Store) (stamp : Stamp) (items : List Evidence)
    (settled : List Settled) (v : σ) :
    (s.finish stamp items settled v).volume = ((s.indexTask stamp items settled).run v).2 := by
  rw [finish_eq]

theorem manifest_finish (s : Store) (stamp : Stamp) (items : List Evidence)
    (settled : List Settled) (v : σ) :
    (s.finish stamp items settled v).manifest s = s.withIndex (manifestOf settled)
      (settleIndex (indexOf stamp settled) s.indexPath
        ((s.indexTask stamp items settled).run v).1) := by
  unfold Written.manifest
  rw [settled_finish, indexResult_finish]

theorem length_requests (s : Store) (items : List Evidence) :
    (s.requests items).length = items.length := by
  unfold requests
  rw [List.length_zip, Target.length_claim, Nat.min_self]

/-- Once the places are known, so are the answers to the claims. -/
theorem requests_of_claim {claims : List (Except StoreError Target)}
    (h : Target.claim s.root items = claims) : s.requests items = items.zip claims := by
  rw [← h]
  rfl

theorem tasks_eq_some_iff {i : Nat} {task : WriteTask} :
    tasks ws i = some task ↔ ∃ e t, ws[i]? = some (e, .ok t) ∧ task = itemTask i e t := by
  unfold tasks
  split
  · next e t hget => simp [hget, eq_comm]
  · next hnot =>
    constructor
    · intro h
      exact nomatch h
    · rintro ⟨e, t, hget, -⟩
      exact absurd hget (hnot e t)

/-- The tasks of a store do not get into each other's way. -/
theorem apart_tasks (s : Store) (items : List Evidence) :
    Progress.Apart (tasks (s.requests items)) := by
  intro i j task task' hi hj hij
  obtain ⟨e, t, hgeti, rfl⟩ := tasks_eq_some_iff.1 hi
  obtain ⟨e', t', hgetj, rfl⟩ := tasks_eq_some_iff.1 hj
  refine ⟨hij, ?_⟩
  change t.path.location ≠ t'.path.location
  have hpairwise := List.pairwise_iff_getElem.1 (Target.pairwise_location_claim s.root items)
  obtain ⟨hi, hgeti⟩ := List.getElem?_eq_some_iff.1 hgeti
  obtain ⟨hj, hgetj⟩ := List.getElem?_eq_some_iff.1 hgetj
  -- The places are compared pairwise, the earlier one with the later one.
  rcases Nat.lt_or_gt_of_ne hij with hlt | hgt
  · exact hpairwise i j hi hj hlt t t' (congrArg Prod.snd hgeti) (congrArg Prod.snd hgetj)
  · exact (hpairwise j i hj hi hgt t' t (congrArg Prod.snd hgetj) (congrArg Prod.snd hgeti)).symm

/-- It is enough that every item has its turns. -/
theorem complete_of_count (s : Store) {items : List Evidence} {turns : List Nat}
    (h : ∀ i < items.length, WriteTask.stepCount ≤ turns.count i) :
    Progress.Complete (tasks (s.requests items)) turns := by
  intro i task hi
  obtain ⟨e, t, hget, -⟩ := tasks_eq_some_iff.1 hi
  obtain ⟨hlt, -⟩ := List.getElem?_eq_some_iff.1 hget
  rw [length_requests] at hlt
  exact h i hlt

/-- One after another, the tasks have all their turns. -/
theorem complete_inOrder (s : Store) (items : List Evidence) :
    Progress.Complete (tasks (s.requests items)) (Progress.inOrder 0 items.length) :=
  s.complete_of_count fun i hi =>
    Progress.stepCount_le_count_inOrder (Nat.zero_le i) (by omega)

/-- The results are about the items, in their order. -/
theorem items_settled (s : Store) (items : List Evidence) (stage : Nat → WriteTask.Stage) :
    ((s.requests items).mapIdx (settleAt stage)).map (·.item) = items := by
  -- The results are made position by position.
  apply List.ext_getElem?
  intro i
  rw [List.getElem?_map, List.getElem?_mapIdx, Option.map_map]
  -- Whatever the stage, the item of a result is that of the request.
  change (s.requests items)[i]?.map Prod.fst = items[i]?
  rw [← List.getElem?_map]
  unfold requests
  rw [List.map_fst_zip (Nat.le_of_eq (Target.length_claim s.root items).symm)]

/-- Every item is settled, in the order of the items. -/
theorem items_writeInTurns (s : Store) (stamp : Stamp) (items : List Evidence) (turns : List Nat)
    (v : σ) : (s.writeInTurns stamp items turns v).settled.map (·.item) = items := by
  unfold writeInTurns
  rw [settled_finish]
  exact items_settled s items _

/-- An item with a place is settled when the last turn has been taken. -/
theorem settled_writeInTurns {i : Nat} {e : Evidence} {t : Target} {turns : List Nat}
    (hi : (s.requests items)[i]? = some (e, .ok t)) :
    (s.writeInTurns stamp items turns v).settled[i]?
      = some (settleAt (Progress.run (tasks (s.requests items)) (.start v) turns).stage i
          (e, .ok t)) := by
  unfold writeInTurns
  rw [settled_finish, List.getElem?_mapIdx, hi]
  rfl

/-- An item whose task has ended with a fault is left out for it. -/
theorem settled_of_fault {i : Nat} {e : Evidence} {t : Target} {turns : List Nat}
    {fault : Volume.Fault} (hi : (s.requests items)[i]? = some (e, .ok t))
    (hfault : ((Progress.run (tasks (s.requests items)) (.start v) turns).stage i).result
      = .error fault) :
    (s.writeInTurns stamp items turns v).settled[i]? = some ⟨e, .error (.io fault)⟩ := by
  rw [settled_writeInTurns hi, settleAt_ok, hfault]
  rfl

/-! ### One item after another -/

/-- What has become of an item with a place when its task has taken all its steps. -/
theorem writeItem_ok (v : σ) (ticket : Nat) (e : Evidence) (t : Target) :
    writeItem v ticket e (.ok t)
      = (⟨e, settleItem e t (EvidenceRecord.ofEvidence e).bytes ((itemTask ticket e t).run v).1⟩,
        ((itemTask ticket e t).run v).2) := by
  unfold writeItem
  simp only [bytes_itemTask]

theorem writeItems_cons (v : σ) (k : Nat) (e : Evidence) (claimed : Except StoreError Target) :
    writeItems v k ((e, claimed) :: ws)
      = ((writeItem v k e claimed).1 :: (writeItems (writeItem v k e claimed).2 (k + 1) ws).1,
        (writeItems (writeItem v k e claimed).2 (k + 1) ws).2) := by
  rw [writeItems]

/-- Writing one item's file is its task taking all its turns in a row. -/
private theorem writeItem_eq {p : Progress σ} {i : Nat} {w : Evidence × Except StoreError Target}
    (hget : ws[i]? = some w) (hwaiting : p.stage i = .waiting) :
    let last := Progress.run (tasks ws) p (List.replicate WriteTask.stepCount i)
    writeItem p.volume i w.1 w.2 = (settleAt last.stage i w, last.volume) ∧
      ∀ k ≠ i, last.stage k = p.stage k := by
  obtain ⟨e, claimed⟩ := w
  cases claimed with
  | error flaw =>
    have hnone : tasks ws i = none := by
      unfold tasks
      rw [hget]
    -- An item without a place has no task, and its turns pass by.
    simp only
    rw [Progress.run_replicate_of_none hnone]
    exact ⟨rfl, fun k _ => rfl⟩
  | ok t =>
    have hsome : tasks ws i = some (itemTask i e t) := tasks_eq_some_iff.2 ⟨e, t, hget, rfl⟩
    simp only
    rw [Progress.run_replicate hsome, hwaiting]
    refine ⟨?_, fun k hk => Function.update_of_ne hk _ _⟩
    unfold writeItem settleAt
    simp only
    rw [WriteTask.run_eq, Function.update_self]
    generalize Nat.repeat (itemTask i e t).step WriteTask.stepCount (.waiting, p.volume) = last
    rfl

/-- Writing items that come after others is their tasks taking all their turns, one after another,
while those of the others rest. -/
private theorem writeItems_eq {full : List (Evidence × Except StoreError Target)}
    (front rest : List (Evidence × Except StoreError Target)) (hfull : full = front ++ rest)
    (p : Progress σ)
    (hwaiting : ∀ i, front.length ≤ i → p.stage i = .waiting) :
    let last := Progress.run (tasks full) p (Progress.inOrder front.length rest.length)
    writeItems p.volume front.length rest
        = (rest.mapIdx fun i w => settleAt last.stage (front.length + i) w, last.volume) ∧
      ∀ i < front.length, last.stage i = p.stage i := by
  induction rest generalizing front p with
  | nil => exact ⟨rfl, fun _ _ => rfl⟩
  | cons w rest ih =>
    -- The task whose turns come next is the first one of the rest.
    have hget : full[front.length]? = some w := by
      rw [hfull, List.getElem?_append_right (Nat.le_refl _), Nat.sub_self]
      rfl
    obtain ⟨hitem, hothers⟩ := writeItem_eq hget (hwaiting front.length (Nat.le_refl _))
    set next := Progress.run (tasks full) p (List.replicate WriteTask.stepCount front.length)
    have hlength : (front ++ [w]).length = front.length + 1 := List.length_append
    have hsplit : full = (front ++ [w]) ++ rest := by
      rw [hfull, List.append_assoc, List.singleton_append]
    obtain ⟨hrest, hbefore⟩ := ih (front ++ [w]) hsplit next fun i hi => by
      rw [hlength] at hi
      rw [hothers i (by omega)]
      exact hwaiting i (by omega)
    rw [hlength] at hrest hbefore
    simp only
    rw [List.length_cons, Progress.inOrder_succ, Progress.run_append]
    set last := Progress.run (tasks full) next (Progress.inOrder (front.length + 1) rest.length)
    constructor
    · -- What has become of the first item is settled before the others take their turns.
      have hfirst : settleAt last.stage front.length w = settleAt next.stage front.length w := by
        unfold settleAt
        rw [hbefore _ (Nat.lt_succ_self _)]
      have hshift : (fun i w => settleAt last.stage (front.length + 1 + i) w)
          = fun i w => settleAt last.stage (front.length + (i + 1)) w := by
        funext i w
        rw [Nat.add_assoc, Nat.add_comm 1 i]
      rw [writeItems, hitem]
      simp only
      rw [hrest, List.mapIdx_cons, hshift, ← hfirst]
      rfl
    · intro i hi
      rw [hbefore i (by omega), hothers i (by omega)]

/-- The index is written once all items are settled. -/
theorem write_eq_finish (s : Store) (stamp : Stamp) (items : List Evidence) (v : σ) :
    s.write stamp items v = s.finish stamp items (writeItems v 0 (s.requests items)).1
      (writeItems v 0 (s.requests items)).2 := by
  unfold Store.write finish requests
  rfl

/-- Writing one item after another is writing in turns, each task taking all its turns in a
row. -/
theorem write_eq_writeInTurns (s : Store) (stamp : Stamp) (items : List Evidence) (v : σ) :
    s.write stamp items v
      = s.writeInTurns stamp items (Progress.inOrder 0 items.length) v := by
  obtain ⟨hwrite, -⟩ := writeItems_eq [] (s.requests items) rfl (.start v) fun _ _ => rfl
  rw [List.length_nil, length_requests] at hwrite
  simp only [Nat.zero_add] at hwrite
  -- The index is written in the same way by both.
  rw [write_eq_finish]
  change s.finish stamp items (writeItems (Progress.start v).volume 0 (s.requests items)).1
    (writeItems (Progress.start v).volume 0 (s.requests items)).2 = _
  rw [hwrite]
  rfl

/-- What became of the items is reported before the manifest is given back. -/
theorem run_persist (s : Store) (stamp : Stamp) (items : List Evidence) (v : σ)
    (j : Journal) : ((s.persist stamp items).run v).run j
      = (((s.write stamp items v).manifest s, (s.write stamp items v).volume),
        ((s.report (s.write stamp items v)).run j).2) := by
  unfold persist
  simp only [StateT.run_bind, StateT.run_get, pure_bind]
  generalize s.write stamp items v = o
  rfl

theorem result_persist (s : Store) (stamp : Stamp) (items : List Evidence) (v : σ)
    (j : Journal) : (s.persist stamp items).result v j
      = ((s.write stamp items v).manifest s, (s.write stamp items v).volume) := by
  unfold FiledOn.result
  rw [run_persist]

theorem run_persistInTurns (s : Store) (stamp : Stamp) (turns : List Evidence → List Nat)
    (items : List Evidence) (v : σ) (j : Journal) :
    ((s.persistInTurns stamp turns items).run v).run j
      = (((s.writeInTurns stamp items (turns items) v).manifest s,
          (s.writeInTurns stamp items (turns items) v).volume),
        ((s.report (s.writeInTurns stamp items (turns items) v)).run j).2) := by
  unfold persistInTurns
  simp only [StateT.run_bind, StateT.run_get, pure_bind]
  generalize s.writeInTurns stamp items (turns items) v = o
  rfl

theorem result_persistInTurns (s : Store) (stamp : Stamp) (turns : List Evidence → List Nat)
    (items : List Evidence) (v : σ) (j : Journal) :
    (s.persistInTurns stamp turns items).result v j
      = ((s.writeInTurns stamp items (turns items) v).manifest s,
        (s.writeInTurns stamp items (turns items) v).volume) := by
  unfold FiledOn.result
  rw [run_persistInTurns]

end

/-! ### What the manifest names -/

variable {σ : Type} {s : Store}

/-- What a manifest names is the index that has been written, or the file of an item kept. -/
theorem of_get?_manifest {o : Written σ} {id : String} {p : Path}
    (h : (o.manifest s).get? id = some p) :
    (o.indexResult = .ok () ∧ id = Manifest.indexKey ∧ p = s.indexPath) ∨
      ∃ settled ∈ o.settled, ∃ kept, settled.result = .ok kept ∧ settled.item.id = id ∧
        kept.target.path = p := by
  have hitem (h : (manifestOf o.settled).entries.get? id = some p) :
      ∃ settled ∈ o.settled, ∃ kept, settled.result = .ok kept ∧ settled.item.id = id ∧
        kept.target.path = p := by
    obtain ⟨settled, hmem, hentry⟩ := List.mem_filterMap.1 (Table.mem_of_get?_ofList h)
    unfold entry? at hentry
    split at hentry
    · next kept hkept =>
      cases hentry
      exact ⟨settled, hmem, kept, hkept, rfl, rfl⟩
    · exact nomatch hentry
  unfold Written.manifest Manifest.get? at h
  cases hindex : o.indexResult with
  | error error =>
    rw [hindex] at h
    exact .inr (hitem h)
  | ok =>
    rw [hindex] at h
    change ((manifestOf o.settled).entries.insert Manifest.indexKey s.indexPath).get? id = _ at h
    -- The entry of the index comes first, as it replaces any other with its key.
    rw [Table.get?_insert] at h
    split at h
    · next hid => exact .inl ⟨rfl, hid, (Option.some.inj h).symm⟩
    · exact .inr (hitem h)

/-- Where no two items have the same id, the manifest names an item if it is kept. -/
theorem exists_get?_manifest_iff {o : Written σ} {settled : Settled}
    (hnodup : (o.settled.map (·.item.id)).Nodup) (hmem : settled ∈ o.settled)
    (hid : settled.item.id ≠ Manifest.indexKey) :
    (∃ p, (o.manifest s).get? settled.item.id = some p) ↔ ∃ kept, settled.result = .ok kept := by
  constructor
  · rintro ⟨p, hp⟩
    rcases of_get?_manifest hp with ⟨-, hindex, -⟩ | ⟨settled', hmem', kept, hkept, hsame, -⟩
    · exact absurd hindex hid
    · -- Two items with one id would be one item.
      have heq : settled' = settled := List.inj_on_of_nodup_map hnodup hmem' hmem hsame
      exact ⟨kept, heq ▸ hkept⟩
  · rintro ⟨kept, hkept⟩
    have hentry : (settled.item.id, kept.target.path) ∈ o.settled.filterMap entry? := by
      rw [List.mem_filterMap]
      refine ⟨settled, hmem, ?_⟩
      unfold entry?
      rw [hkept]
    obtain ⟨p, hp⟩ := Table.exists_get?_ofList_iff.2 (List.mem_map_of_mem (f := (·.1)) hentry)
    -- The entry of the index has a key of its own, so that it takes no other entry's place.
    refine ⟨p, ?_⟩
    unfold Written.manifest Manifest.get?
    cases o.indexResult with
    | error error => exact hp
    | ok =>
      change ((manifestOf o.settled).entries.insert _ _).get? _ = _
      rw [Table.get?_insert, if_neg hid]
      exact hp

/-- What is left out does not depend on the index. -/
theorem omitted_manifest (s : Store) (o : Written σ) :
    (o.manifest s).omitted = o.settled.filterMap omission? := by
  unfold Written.manifest
  cases o.indexResult with
  | error error => rfl
  | ok => rfl

end Store

end Scorecard
