import Scorecard.Proofs.TaskIdempotence
import Scorecard.Proofs.Containment
import Scorecard.Proofs.Index
import Scorecard.Proofs.Persist
import Scorecard.Proofs.Twins
import Scorecard.Volume.Disk

/-!
# Keeping the same items again

Items that have been written are written again on the volume that this has left, with all that it
has made, replaced or left behind. What a task has left stays in kind while the others do their
work, its file stays as it is, and nothing of it is staged any more. So every task comes to the same
end as the first time, and changes nothing; the one that writes the index does so too, except that
another stamp gives it other bytes to write.

* `Store.writeItems_again`: the items are settled alike, and the volume stays as it is.
* `Store.write_again`: a second attempt differs from the first one in its index only.
* `Store.Repeats`: one attempt repeats another one under a stamp of its own.
* `Store.persist_idempotent`: keeping the same items again repeats the first attempt;
  `Store.persist_again_ne_of_link`: it need not do so on a disk with links.
-/

namespace Scorecard

open Volume

namespace Store

variable {s : Store} {stamp stamp' : Stamp} {items : List Evidence} {v w : Volume}
  {ws : List (Evidence × Except StoreError Target)} {k : Nat} {e : Evidence} {t : Target}

/-! ### Items written one after another -/

theorem volume_writeItem (v : Volume) (k : Nat) (e : Evidence) (t : Target) :
    (writeItem v k e (.ok t)).2 = ((itemTask k e t).run v).2 := by
  rw [writeItem_ok]

/-- The places of all items that have one lie below the root. -/
def AllGranted (s : Store) (ws : List (Evidence × Except StoreError Target)) : Prop :=
  ∀ {e t}, (e, Except.ok t) ∈ ws → Target.Granted s.root t

/-- What is written of items keeps what it finds. -/
theorem retains_writeItems (h : s.AllGranted ws) (v : Volume) (k : Nat) :
    Retains v (writeItems v k ws).2 := by
  induction ws generalizing v k with
  | nil => exact .refl v
  | cons head ws ih =>
    obtain ⟨e, claimed⟩ := head
    rw [writeItems_cons]
    refine Retains.trans ?_ (ih (fun hmem => h (List.mem_cons_of_mem _ hmem)) _ _)
    -- An item without a place is refused before anything is written.
    cases claimed with
    | error error => exact .refl v
    | ok t =>
      rw [volume_writeItem]
      exact WriteTask.retains_run (nested_of_granted (h List.mem_cons_self) k e) v

/-- Away from the places of the items no file is touched, and only the tickets of the items, which
count on from `k`, are used. -/
theorem untouched_writeItems (v : Volume) (k : Nat)
    (ws : List (Evidence × Except StoreError Target)) :
    (∀ {loc}, (∀ e t, (e, Except.ok t) ∈ ws → loc ≠ t.path.location) →
      (writeItems v k ws).2.fileAt? loc = v.fileAt? loc) ∧
    ∀ {i}, i < k → (writeItems v k ws).2.staged.get? i = v.staged.get? i := by
  induction ws generalizing v k with
  | nil => exact ⟨fun _ => rfl, fun _ => rfl⟩
  | cons head ws ih =>
    obtain ⟨e, claimed⟩ := head
    rw [writeItems_cons]
    obtain ⟨hfile, hstaged⟩ := ih (writeItem v k e claimed).2 (k + 1)
    cases claimed with
    | error error =>
      exact ⟨fun hloc => hfile fun e t hmem => hloc e t (List.mem_cons_of_mem _ hmem),
        fun hi => hstaged (by omega)⟩
    | ok t =>
      rw [volume_writeItem] at hfile hstaged ⊢
      have hconfined := ((itemTask k e t).run_spec v).1
      refine ⟨fun {loc} hloc => ?_, fun {i} hi => ?_⟩
      · refine (hfile fun e t hmem => hloc e t (List.mem_cons_of_mem _ hmem)).trans ?_
        refine hconfined.grows.fileAt?_eq ?_
        rw [target_itemTask]
        exact hloc e t List.mem_cons_self
      · -- The ticket of the first item is `k`, and those of the others are greater.
        have hticket : i ≠ (itemTask k e t).ticket := by
          unfold itemTask
          exact Nat.ne_of_lt hi
        exact (hstaged (by omega)).trans (hconfined.staged hticket)

/-- What has been done for items is still there, in kind: all that has been found or made, the files
at their places, and what is staged under their tickets. -/
structure Lasts (ws : List (Evidence × Except StoreError Target)) (k : Nat) (v w : Volume) :
    Prop where
  retains : Retains (writeItems v k ws).2 w
  file : ∀ {e t}, (e, Except.ok t) ∈ ws →
    w.fileAt? t.path.location = (writeItems v k ws).2.fileAt? t.path.location
  staged : ∀ {i}, k ≤ i → i < k + ws.length →
    w.staged.get? i = (writeItems v k ws).2.staged.get? i

/-- Where no two items have the same place and all that has been done for them is still there, they
are settled alike the second time, and nothing is changed. -/
theorem writeItems_again (hgranted : s.AllGranted ws)
    (hapart : ws.Pairwise fun a b =>
      ∀ t u, a.2 = .ok t → b.2 = .ok u → t.path.location ≠ u.path.location)
    (h : Lasts ws k v w) : writeItems w k ws = ((writeItems v k ws).1, w) := by
  induction ws generalizing v k with
  | nil => rfl
  | cons head ws ih =>
    obtain ⟨e, claimed⟩ := head
    obtain ⟨hfirst, hapart⟩ := List.pairwise_cons.1 hapart
    have hrest : s.AllGranted ws := fun hmem => hgranted (List.mem_cons_of_mem _ hmem)
    obtain ⟨hretains, hfile, hstaged⟩ := h
    rw [List.length_cons] at hstaged
    rw [writeItems_cons] at hretains hfile hstaged ⊢
    -- What has been done for the first item is untouched by what is done for the others.
    have hitem : writeItem w k e claimed = ((writeItem v k e claimed).1, w) := by
      cases claimed with
      | error error => rfl
      | ok t =>
        rw [volume_writeItem] at hretains hfile hstaged
        have hnested := nested_of_granted (hgranted List.mem_cons_self) k e
        obtain ⟨hsame, hticket⟩ := untouched_writeItems ((itemTask k e t).run v).2 (k + 1) ws
        -- What has been done for the others lasts too, as the first item changes nothing.
        have hlasts : (itemTask k e t).Lasts v w := by
          refine ⟨(retains_writeItems hrest _ _).trans hretains, fun {bytes} hresult => ?_, ?_⟩
          · have hcontents := (((itemTask k e t).run_spec v).2 hresult).2
            rw [target_itemTask] at hcontents ⊢
            rw [hfile List.mem_cons_self, hsame fun e' u hmem => hfirst _ hmem t u rfl rfl]
            exact (contents_eq_ok_iff.1 hcontents).2.2
          · exact (hstaged (Nat.le_refl k) (by omega)).trans (hticket (Nat.lt_succ_self k))
        rw [writeItem_ok, writeItem_ok, WriteTask.run_again hnested hlasts]
    have hlast : Lasts ws (k + 1) (writeItem v k e claimed).2 w :=
      ⟨hretains, fun hmem => hfile (List.mem_cons_of_mem _ hmem),
        fun hle hlt => hstaged (by omega) (by omega)⟩
    rw [writeItems_cons, hitem, ih hrest hapart hlast]

/-! ### All of it again -/

/-- What has been done for the items is still there when the index has been written. -/
theorem lasts_indexTask (s : Store) (stamp : Stamp) (items : List Evidence)
    (settled : List Settled) (v : Volume) :
    Lasts (s.requests items) 0 v
      ((s.indexTask stamp items settled).run (writeItems v 0 (s.requests items)).2).2 := by
  have hnested := (nested_indexTask s stamp items settled).1
  have hconfined := ((s.indexTask stamp items settled).run_spec
    (writeItems v 0 (s.requests items)).2).1
  -- The index is no item: it has a place and a ticket of its own.
  refine ⟨WriteTask.retains_run hnested _, fun {e t} hmem => ?_, fun {i} _ hi => ?_⟩
  · refine hconfined.grows.fileAt?_eq ?_
    rw [target_indexTask]
    exact location_ne_indexPath (Target.of_mem_claim hmem).1
  · refine hconfined.staged ?_
    rw [length_requests, Nat.zero_add] at hi
    -- The tickets of the items come before that of the index.
    exact Nat.ne_of_lt hi

/-- On the volume that an attempt has left the items are settled as they have been, and nothing is
left to do but to write the index. -/
theorem write_again (s : Store) (stamp stamp' : Stamp) (items : List Evidence) (v : Volume) :
    s.write stamp' items (s.write stamp items v).volume
      = s.finish stamp' items (s.write stamp items v).settled (s.write stamp items v).volume := by
  have hgranted : s.AllGranted (s.requests items) := fun hmem => (Target.of_mem_claim hmem).1
  have hsame := writeItems_again hgranted (Target.pairwise_location_claim s.root items)
    (lasts_indexTask s stamp items (writeItems v 0 (s.requests items)).1 v)
  rw [write_eq_finish s stamp, settled_finish, volume_finish, write_eq_finish, hsame]

/-- One attempt to keep items repeats another one with a stamp of its own: it has the same manifest
and leaves the same volume, but where the index has been written, it has another stamp. -/
structure Repeats (s : Store) (stamp stamp' : Stamp) (a b : Manifest × Volume) : Prop where
  manifest : b.1 = a.1
  elsewhere : ∀ {loc}, loc ≠ s.indexPath.location → b.2.get? loc = a.2.get? loc
  staged : b.2.staged = a.2.staged
  index : (a.1.indexPath = none ∧ b.2 = a.2) ∨
    ∃ ix : Index, a.2.contents s.indexPath = .ok (ix.stamped stamp).bytes ∧
      b.2.contents s.indexPath = .ok (ix.stamped stamp').bytes

/-- Once the items are settled, writing the index again repeats the first time. -/
private theorem repeats_finish (hstamp : stamp.Legible) (hstamp' : stamp'.Legible)
    (items : List Evidence) (settled : List Settled) (v : Volume) :
    s.Repeats stamp stamp'
      ((s.finish stamp items settled v).manifest s, (s.finish stamp items settled v).volume)
      ((s.finish stamp' items settled (s.finish stamp items settled v).volume).manifest s,
        (s.finish stamp' items settled (s.finish stamp items settled v).volume).volume) := by
  have hnested := (nested_indexTask s stamp items settled).1
  -- On the volume that the first task has left it would do the same again.
  have hagain := WriteTask.run_again hnested (WriteTask.lasts_run _ v)
  have hw : (s.indexTask stamp items settled).run (s.finish stamp items settled v).volume
      = (s.indexTask stamp items settled).run v := by
    rw [volume_finish, hagain]
  have htwins := indexTwins_finish hstamp hstamp' items settled hw
  refine ⟨htwins.manifest, htwins.elsewhere, htwins.staged, ?_⟩
  refine htwins.index.imp_right fun ⟨_, hcontents, hcontents'⟩ => ⟨indexOf stamp settled, ?_⟩
  -- Both indexes are the same one with two stamps.
  rw [← indexOf_stamp stamp stamp, ← indexOf_stamp stamp stamp']
  exact ⟨hcontents, hcontents'⟩

/-- Writing the index again with the same stamp changes nothing. -/
private theorem finish_again (s : Store) (stamp : Stamp) (items : List Evidence)
    (settled : List Settled) (v : Volume) :
    s.finish stamp items settled (s.finish stamp items settled v).volume
      = s.finish stamp items settled v := by
  have hnested := (nested_indexTask s stamp items settled).1
  rw [volume_finish, finish_eq, finish_eq, WriteTask.run_again hnested (WriteTask.lasts_run _ v)]

/-- Keeping the same items again on the volume that the first attempt has left, whatever the items
are and whatever has been there before, repeats the first attempt: the manifest is the same, and the
volume too, except that an index that has been written has the stamp of the attempt. With the same
stamp nothing is changed at all. -/
theorem persist_idempotent (s : Store) (stamp : Stamp) (items : List Evidence) (v : Volume)
    (j j' : Journal) :
    let first := (s.persist stamp items).result v j
    (s.persist stamp items).result first.2 j' = first ∧
      ∀ stamp' : Stamp, stamp.Legible → stamp'.Legible →
        s.Repeats stamp stamp' first ((s.persist stamp' items).result first.2 j') := by
  intro first
  have hfirst : first
      = ((s.write stamp items v).manifest s, (s.write stamp items v).volume) := result_persist ..
  have hagain (stamp' : Stamp) := write_again s stamp stamp' items v
  rw [write_eq_finish s stamp items v, settled_finish] at hagain
  rw [write_eq_finish] at hfirst
  constructor
  · rw [result_persist, hfirst, hagain, finish_again]
  · intro stamp' hstamp hstamp'
    rw [result_persist, hfirst, hagain]
    exact repeats_finish hstamp hstamp' items _ _

/-- Items one of which has its place below the file of another one, repeats its id, suggests a place
outside the root, or has a payload that is too deep to be read back. -/
theorem persist_idempotent_of_mixed :
    let s := Store.ofRoot ⟨"evidence"⟩
    let items : List Evidence := [
      ⟨"a-01", "a", .testing, .high, "", .null, ⟨"a"⟩⟩,
      ⟨"b-01", "b", .testing, .high, "", .null, ⟨"a/b.json"⟩⟩,
      ⟨"a-01", "c", .testing, .high, "", .null, ⟨"c.json"⟩⟩,
      ⟨"d-01", "d", .testing, .high, "", .null, ⟨"../d.json"⟩⟩,
      ⟨"e-01", "e", .testing, .high, "", Nat.repeat (fun j => .arr [j]) 128 .null, ⟨"e.json"⟩⟩]
    let stamp : Stamp := ⟨.nil, ⟨"1970-01-01T00:00:00Z"⟩⟩
    let stamp' : Stamp := ⟨⟨"67e55044-10b1-426f-9247-bb680e5fe0c8"⟩, ⟨"2024-02-29T23:59:59.5Z"⟩⟩
    let first := (s.persist stamp items).result Volume.empty .empty
    (stamp.Legible ∧ stamp'.Legible) ∧ (s.persist stamp items).result first.2 .empty = first ∧
      s.Repeats stamp stamp' first ((s.persist stamp' items).result first.2 .empty) := by
  intro s items stamp stamp' first
  have hstamp : Stamp.Legible ⟨.nil, ⟨"1970-01-01T00:00:00Z"⟩⟩ :=
    ⟨by decide +kernel, by decide +kernel⟩
  have hstamp' : Stamp.Legible
      ⟨⟨"67e55044-10b1-426f-9247-bb680e5fe0c8"⟩, ⟨"2024-02-29T23:59:59.5Z"⟩⟩ :=
    ⟨by decide +kernel, by decide +kernel⟩
  clear_value s items
  obtain ⟨hsame, hrepeats⟩ := persist_idempotent s stamp items .empty .empty .empty
  exact ⟨⟨hstamp, hstamp'⟩, hsame, hrepeats stamp' hstamp hstamp'⟩

/-- On a disk with links, the second attempt can keep what the first one could not: a link leads to
a folder that the first attempt makes only after it has given up the item behind the link. -/
theorem persist_again_ne_of_link :
    let s := Store.ofRoot ⟨"s"⟩
    let d := (Disk.ofVolume (Volume.empty.addFolder [] "s")).addLink ["s"] "b" ⟨"a"⟩
    let items : List Evidence := [
      ⟨"a-01", "a", .testing, .high, "", .null, ⟨"b/x.json"⟩⟩,
      ⟨"b-01", "b", .testing, .high, "", .null, ⟨"a/y.json"⟩⟩]
    let stamp : Stamp := ⟨.nil, ⟨"1970-01-01T00:00:00Z"⟩⟩
    let loc := ["s", "a", "x.json"]
    let first := (s.persist stamp items).result d .empty
    ((s.persist stamp items).result first.2 .empty).2.volume.get? loc
      ≠ first.2.volume.get? loc := by
  intro s d items stamp loc
  have hmissing : ((s.write stamp items d).volume.volume.get? loc).isSome = false := by
    decide +kernel
  have hthere : ((s.write stamp items (s.write stamp items d).volume).volume.volume.get?
      loc).isSome = true := by decide +kernel
  -- From here on it is enough that the two differ.
  clear_value s d items stamp loc
  intro first hsame
  have hfirst : first = ((s.write stamp items d).manifest s, (s.write stamp items d).volume) :=
    result_persist s stamp items d .empty
  rw [result_persist, hfirst] at hsame
  simp only at hsame
  rw [hsame, hmissing] at hthere
  exact nomatch hthere

end Store

end Scorecard
