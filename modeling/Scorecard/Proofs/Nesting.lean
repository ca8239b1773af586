import Scorecard.Proofs.Interleaving

/-!
# Places that block each other

Claims are settled before anything is written, by comparing names: a place is refused if it is that
of an earlier item, or if it lies at the index or beneath it. A place beneath that of an earlier
item is not refused. A file cannot stand where a folder is needed, so of two such places at most one
has its file in the end, and it depends on the turns which one.

That is the only way in which places granted block each other. An item whose place is neither above
nor beneath another one granted comes to the same end as if it were the only item, whatever the
turns are and whatever becomes of the others.

* `Volume.isFolder_of_prefix`: what is above something is a folder.
* `Progress.follows_run`: a task that all others keep clear of.
* `Store.Standing`, `Store.standing_of_granted`: what can block a place granted, and what cannot.
-/

namespace Scorecard

namespace Volume

/-- Above a place where something stands are folders only. -/
theorem isFolder_of_prefix {v : Volume} {loc loc' : Location} (h : (v.get? loc').isSome = true)
    (habove : loc <+: loc') (hne : loc ≠ loc') : v.isFolder loc = true := by
  obtain ⟨more, rfl⟩ := habove
  -- From the bottom up, each place is a folder because something stands in it.
  induction more using List.reverseRecOn with
  | nil => exact absurd (List.append_nil loc).symm hne
  | append_singleton more name ih =>
    rw [← List.append_assoc] at h
    have hfolder : v.isFolder (loc ++ more) = true :=
      isFolder_iff_get?.2 (v.rooted (loc ++ more) name h)
    by_cases hnil : more = []
    · rwa [hnil, List.append_nil] at hfolder
    · refine ih ?_ fun heq => hnil (List.self_eq_append_right.1 heq)
      rcases isFolder_iff_get?.1 hfolder with htop | hget
      · exact absurd (List.append_eq_nil_iff.1 htop).2 hnil
      · rw [hget]
        rfl

/-- No file stands above another one. -/
theorem not_prefix_of_fileAt? {v : Volume} {loc loc' : Location} {bytes bytes' : ByteArray}
    (h : v.fileAt? loc = some bytes) (h' : v.fileAt? loc' = some bytes') (htop : loc ≠ [])
    (hne : loc ≠ loc') : ¬ loc <+: loc' := by
  intro habove
  rw [fileAt?_eq_some_iff] at h h'
  have hfolder : v.isFolder loc = true := isFolder_of_prefix (by rw [h']; rfl) habove hne
  rcases isFolder_iff_get?.1 hfolder with hnil | hget
  · exact htop hnil
  · rw [h] at hget
    cases hget

end Volume

namespace Progress

variable {tasks : Nat → Option WriteTask}

/-- A task that all others keep clear of goes on as if it were alone, whatever these do to each
other. -/
theorem follows_run {i : Nat} {t : WriteTask} (hi : tasks i = some t) (ht : t.Nested)
    (hothers : ∀ ⦃j u⦄, tasks j = some u → i ≠ j → u.Nested ∧ t.Clear u) (v : Volume)
    (turns : List Nat) :
    Follows t v (turns.count i) ((run tasks (start v) turns).stage i)
      (run tasks (start v) turns).volume := by
  induction turns using List.reverseRecOn with
  | nil => exact follows_zero t v
  | append_singleton turns j ih =>
    rw [run_append, List.count_append, List.count_singleton]
    change Follows t v _ ((advance tasks _ j).stage i) (advance tasks _ j).volume
    by_cases hij : i = j
    · -- its own turn
      subst hij
      rw [advance_of_some hi, beq_self_eq_true, if_pos rfl]
      simp only [Function.update_self]
      exact (ih.own ht).1
    · rw [beq_false_of_ne (Ne.symm hij), if_neg Bool.false_ne_true, Nat.add_zero]
      cases hj : tasks j with
      | none =>
        rw [advance_of_none hj]
        exact ih
      | some u =>
        obtain ⟨hu, hclear⟩ := hothers hj hij
        rw [advance_of_some hj]
        simp only [Function.update_of_ne hij]
        exact ih.other ht hclear hu _

end Progress

namespace Store

variable {s : Store} {stamp : Stamp} {items : List Evidence} {v : Volume} {turns : List Nat}
  {i j : Nat} {e e' : Evidence} {t u : Target}

/-! ### What can block a place -/

/-- What can be relied on for the place granted to the item with a number. -/
structure Standing (s : Store) (items : List Evidence) (i : Nat) (e : Evidence) (t : Target) :
    Prop where
  /-- The place is not at the index, nor beneath it. -/
  index : ¬ s.indexPath.location <+: t.path.location
  /-- No other item has been granted the same place. -/
  distinct : ∀ {j e' u}, (s.requests items)[j]? = some (e', .ok u) → i ≠ j →
    t.path.location ≠ u.path.location
  /-- Another place granted is in the way only if the names of one go on from those of the other. -/
  nested : ∀ {j e' u}, (s.requests items)[j]? = some (e', .ok u) → i ≠ j →
    (t.path.Apart u.path ↔ ¬ t.names <+: u.names ∧ ¬ u.names <+: t.names)
  /-- Of two items in each other's way at most one is kept, whatever the turns are. -/
  rivals : ∀ {j e' u}, (s.requests items)[j]? = some (e', .ok u) → i ≠ j →
    ¬ t.path.Apart u.path → ∀ stamp (v : Volume) turns x y,
      (s.writeInTurns stamp items turns v).settled[i]? = some x →
      (s.writeInTurns stamp items turns v).settled[j]? = some y →
      x.result.isOk = false ∨ y.result.isOk = false
  /-- An item that no other is in the way of is settled as if there were no others, one after
  another or in turns. -/
  alone : (∀ j e' u, (s.requests items)[j]? = some (e', .ok u) → i ≠ j → t.path.Apart u.path) →
    ∀ stamp (v : Volume), (s.write stamp items v).settled[i]? = some (writeItem v i e (.ok t)).1 ∧
      ∀ turns, Progress.Complete (tasks (s.requests items)) turns →
        (s.writeInTurns stamp items turns v).settled[i]? = some (writeItem v i e (.ok t)).1

/-- Whether two places are apart is a matter of their names. -/
theorem apart_iff (ht : Target.Granted s.root t) (hu : Target.Granted s.root u) :
    t.path.Apart u.path ↔ ¬ t.names <+: u.names ∧ ¬ u.names <+: t.names := by
  have hsame {t u : Target} (ht : Target.Granted s.root t) (hu : Target.Granted s.root u) :
      t.path.location <+: u.path.location ↔ t.names <+: u.names := by
    rw [ht.location, hu.location, List.prefix_append_right_inj]
  constructor
  · intro h
    exact ⟨fun hnames => h.notBeneath ((hsame ht hu).2 hnames),
      fun hnames => h.notAbove ((hsame hu ht).2 hnames)⟩
  · rintro ⟨hbeneath, habove⟩
    exact ⟨fun h => hbeneath ((hsame ht hu).1 h), fun h => habove ((hsame hu ht).1 h)⟩

/-- The file of an item that is kept stands at its place when all tasks have had their turns. -/
theorem fileAt?_of_kept (hi : (s.requests items)[i]? = some (e, .ok t)) {x : Settled}
    (hx : (s.writeInTurns stamp items turns v).settled[i]? = some x) (hok : x.result.isOk = true) :
    (Progress.run (tasks (s.requests items)) (.start v) turns).volume.fileAt? t.path.location
      = some (EvidenceRecord.ofEvidence e).bytes := by
  -- The result is about the item with the number and the place granted to it.
  cases (settled_writeInTurns hi).symm.trans hx
  set last := Progress.run (tasks (s.requests items)) (.start v) turns with hlast
  cases hresult : (settleAt last.stage i (e, .ok t)).result with
  | error error =>
    rw [hresult] at hok
    exact nomatch hok
  | ok kept =>
    -- An item is kept only when what has been read back at the end is its record.
    obtain ⟨-, -, hcontents, -⟩ := of_kept (List.mem_of_getElem? hx) hresult
    obtain ⟨readBack, -, -, hkept⟩ := settleItem_eq_ok hresult
    rw [hkept, item_settleAt] at hcontents
    exact (Volume.contents_eq_ok_iff.1 hcontents).2.2

/-- Two items of which one has its place beneath the other's are not both kept. -/
theorem not_both_kept (hi : (s.requests items)[i]? = some (e, .ok t))
    (hj : (s.requests items)[j]? = some (e', .ok u)) (hij : i ≠ j)
    (habove : t.path.location <+: u.path.location) {x y : Settled}
    (hx : (s.writeInTurns stamp items turns v).settled[i]? = some x)
    (hy : (s.writeInTurns stamp items turns v).settled[j]? = some y) :
    x.result.isOk = false ∨ y.result.isOk = false := by
  by_contra hboth
  rw [not_or, Bool.not_eq_false, Bool.not_eq_false] at hboth
  -- Both records would stand in the last volume, which has no file beneath a file.
  have hfile := fileAt?_of_kept hi hx hboth.1
  have hfile' := fileAt?_of_kept hj hy hboth.2
  have hne : t.path.location ≠ u.path.location :=
    (apart_tasks s items (tasks_eq_some_iff.2 ⟨e, t, hi, rfl⟩)
      (tasks_eq_some_iff.2 ⟨e', u, hj, rfl⟩) hij).2
  have hgranted := (Target.of_mem_claim (List.mem_of_getElem? hi)).1
  have htop : t.path.location ≠ [] := by
    rw [hgranted.location]
    exact List.append_ne_nil_of_right_ne_nil _ hgranted.ne_nil
  exact Volume.not_prefix_of_fileAt? hfile hfile' htop hne habove

/-- An item that no other is in the way of comes to the same end as on its own. -/
private theorem settled_of_apart (hi : (s.requests items)[i]? = some (e, .ok t))
    (hapart : ∀ j e' u, (s.requests items)[j]? = some (e', .ok u) → i ≠ j → t.path.Apart u.path)
    (hturns : Progress.Complete (tasks (s.requests items)) turns) :
    (s.writeInTurns stamp items turns v).settled[i]? = some (writeItem v i e (.ok t)).1 := by
  have htask : tasks (s.requests items) i = some (itemTask i e t) :=
    tasks_eq_some_iff.2 ⟨e, t, hi, rfl⟩
  -- The other tasks are clear of this one, so that it takes the steps it takes alone.
  have hfollows := Progress.follows_run htask (nested_itemTask htask) (fun j task hj hij => by
    obtain ⟨e', u, hgetj, rfl⟩ := tasks_eq_some_iff.1 hj
    exact ⟨nested_itemTask hj, clear_of_apart htask hj hij (hapart j e' u hgetj hij)⟩) v turns
  have hstage := hfollows.stage
  rw [WriteTask.alone_of_le (hturns htask)] at hstage
  rw [settled_writeInTurns hi]
  unfold settleAt writeItem
  simp only
  rw [hstage, WriteTask.run_eq]
  rfl

/-- Whatever claims there are, a place granted is not at the index and is granted once. It is
blocked by a place beneath or above it, of which at most one is kept, and by no other: an item
without such a rival is settled as if it were the only one. -/
theorem standing_of_granted (s : Store) (items : List Evidence) {i : Nat} {e : Evidence}
    {t : Target} (hi : (s.requests items)[i]? = some (e, .ok t)) : s.Standing items i e t := by
  have hgranted := (Target.of_mem_claim (List.mem_of_getElem? hi)).1
  refine ⟨fun hindex => ?_, fun {j e' u} hj hij => ?_, fun {j e' u} hj _ => ?_,
    fun {j e' u} hj hij hway stamp v turns x y hx hy => ?_, fun hapart stamp v => ⟨?_, ?_⟩⟩
  · rw [location_indexPath, hgranted.location, List.prefix_append_right_inj] at hindex
    obtain ⟨rest, hrest⟩ := hindex
    apply hgranted.ne_index
    rw [← hrest]
    rfl
  · exact (apart_tasks s items (tasks_eq_some_iff.2 ⟨e, t, hi, rfl⟩)
      (tasks_eq_some_iff.2 ⟨e', u, hj, rfl⟩) hij).2
  · exact apart_iff hgranted (Target.of_mem_claim (List.mem_of_getElem? hj)).1
  · -- One of the two places is above the other, and the argument is the same for both.
    by_cases habove : t.path.location <+: u.path.location
    · exact not_both_kept hi hj hij habove hx hy
    · have hbeneath : u.path.location <+: t.path.location := by
        by_contra hnot
        exact hway ⟨habove, hnot⟩
      exact (not_both_kept hj hi (Ne.symm hij) hbeneath hy hx).symm
  · rw [write_eq_writeInTurns]
    exact settled_of_apart hi hapart (complete_inOrder s items)
  · exact fun turns hturns => settled_of_apart hi hapart hturns

/-! ### Two items -/

/-- An item with a file at the root. -/
private def upperItem : Evidence := ⟨"a-01", "a", .testing, .high, "", .null, ⟨"x"⟩⟩

/-- An item with a file beneath that one. -/
private def lowerItem : Evidence := ⟨"b-01", "b", .testing, .high, "", .null, ⟨"x/y.json"⟩⟩

/-- Both items are granted their places, though one is above the other. -/
private theorem requests_nested :
    (Store.ofRoot ⟨"evidence"⟩).requests [upperItem, lowerItem]
      = [(upperItem, .ok (.below ⟨"evidence"⟩ ["x"])),
        (lowerItem, .ok (.below ⟨"evidence"⟩ ["x", "y.json"]))] := by
  have hclaim : Target.claim (Store.ofRoot ⟨"evidence"⟩).root [upperItem, lowerItem]
      = [.ok (.below ⟨"evidence"⟩ ["x"]), .ok (.below ⟨"evidence"⟩ ["x", "y.json"])] := by
    decide +kernel
  exact requests_of_claim hclaim

/-- What can be relied on for the first of the two. -/
theorem standing_of_upper :
    let s := Store.ofRoot ⟨"evidence"⟩
    (s.requests [upperItem, lowerItem])[0]? = some (upperItem, .ok (.below s.root ["x"])) ∧
      s.Standing [upperItem, lowerItem] 0 upperItem (.below s.root ["x"]) := by
  intro s
  have hi : (s.requests [upperItem, lowerItem])[0]?
      = some (upperItem, .ok (.below s.root ["x"])) := by
    rw [requests_nested]
    rfl
  exact ⟨hi, standing_of_granted s _ hi⟩

/-- Both are granted their places, one beneath the other. The second one is left out if the first
one comes to its end before it starts; the first one is left out if the second one has made its
folder before. -/
theorem nested_in_turns :
    let s := Store.ofRoot ⟨"evidence"⟩
    let t := Target.below s.root ["x"]
    let u := Target.below s.root ["x", "y.json"]
    let stamp : Stamp := ⟨.nil, ⟨"1970-01-01T00:00:00Z"⟩⟩
    let settled := fun turns =>
      (s.writeInTurns stamp [upperItem, lowerItem] turns Volume.empty).settled
    s.requests [upperItem, lowerItem] = [(upperItem, .ok t), (lowerItem, .ok u)] ∧
      t.path.location <+: u.path.location ∧ ¬ t.path.Apart u.path ∧
      (settled [0, 0, 0, 0, 1, 1, 1, 1])[1]? = some ⟨lowerItem, .error (.io .noFolder)⟩ ∧
      (settled [1, 0, 0, 0, 0, 1, 1, 1])[0]? = some ⟨upperItem, .error (.io .isFolder)⟩ := by
  intro s t u stamp settled
  have hi : (s.requests [upperItem, lowerItem])[0]? = some (upperItem, .ok t) := by
    rw [requests_nested]
    rfl
  have hj : (s.requests [upperItem, lowerItem])[1]? = some (lowerItem, .ok u) := by
    rw [requests_nested]
    rfl
  have hbeneath : t.path.location <+: u.path.location := by decide +kernel
  refine ⟨requests_nested, hbeneath, fun h => h.notBeneath hbeneath, ?_, ?_⟩
  · have hstage : ((Progress.run (tasks (s.requests [upperItem, lowerItem])) (.start Volume.empty)
        [0, 0, 0, 0, 1, 1, 1, 1]).stage 1).result = .error .noFolder := by
      rw [requests_nested]
      decide +kernel
    exact settled_of_fault hj hstage
  · have hstage : ((Progress.run (tasks (s.requests [upperItem, lowerItem])) (.start Volume.empty)
        [1, 0, 0, 0, 0, 1, 1, 1]).stage 0).result = .error .isFolder := by
      rw [requests_nested]
      decide +kernel
    exact settled_of_fault hi hstage

end Store

end Scorecard
