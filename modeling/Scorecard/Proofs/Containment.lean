import Scorecard.Proofs.Footprint
import Scorecard.Proofs.Persist

/-!
# What keeping evidence leaves alone

Whatever places are suggested for its items, a store changes nothing outside its root except that
it makes the folders on the way of the root that are missing. Below the root it takes nothing away.
What appears there is a file at a place granted or at that of the index, or a folder around one of
these; so no file that was only staged is left anywhere in the tree, and none beside it. No item
touches the place of the index or anything below it.

The way of the root is that of its path as it is written: where the path leads down and up again,
it passes by folders that are not around the root, or even by the place of the index, and these are
made as well. A root whose path nowhere leads up has only the folders around it on its way.

* `Progress.alters_run`, `Progress.staged_run`: the changes of tasks that take turns.
* `Store.Contained`: what a store leaves alone.
* `Store.persist_contained`: every attempt to keep items leaves this alone.
-/

open Scorecard.Path (ofNames IsName)

namespace Scorecard

open Volume

/-! ### Staging -/

namespace WriteTask

variable {t : WriteTask} {v₀ v : Volume} {stage : Stage}

/-- Under the ticket of a task nothing is staged that was not staged at first, unless the task has
just staged its file. -/
private def Tidy (t : WriteTask) (v₀ v : Volume) : Stage → Prop
  | .staged => True
  | _ => v.staged.get? t.ticket = none ∨ v.staged.get? t.ticket = v₀.staged.get? t.ticket

/-- What has been dropped is not staged any more. -/
private theorem tidy_dropStaged (t : WriteTask) (v : Volume) :
    (v.dropStaged t.ticket).staged.get? t.ticket = none := by
  rw [get?_staged_dropStaged, if_pos rfl]

/-- A task that has kept tidy does so with its next step. -/
private theorem Tidy.step (h : t.Tidy v₀ v stage) :
    t.Tidy v₀ (t.step (stage, v)).2 (t.step (stage, v)).1 := by
  cases stage with
  | waiting =>
    -- Making folders does not look at what is staged.
    have hstaged := (grows_makeFolders (fun _ => False) v t.folder).2
    change v.staged.get? t.ticket = none ∨ _ at h
    rw [← hstaged] at h
    change t.Tidy v₀ (t.prepare v).2 (t.prepare v).1
    rw [prepare_eq]
    split
    · next hresult =>
      rw [hresult] at h
      exact h
    · next hresult =>
      rw [hresult] at h
      exact h
  | prepared =>
    change t.Tidy v₀ (t.stage v).2 (t.stage v).1
    rw [WriteTask.stage_eq]
    split
    · split
      · trivial
      · exact h
    · exact h
  | staged =>
    change t.Tidy v₀ (t.place v).2 (t.place v).1
    rw [place_eq]
    split
    · next hnone => exact .inl hnone
    · split
      · exact .inl (tidy_dropStaged t _)
      · exact .inl (tidy_dropStaged t v)
  | placed => exact h
  | ended result => exact h

/-- A task stays tidy while another one, with a ticket of its own, takes a step. -/
private theorem Tidy.of_confined {u : WriteTask} {v' : Volume} (h : t.Tidy v₀ v stage)
    (hu : Confined u v v') (hticket : t.ticket ≠ u.ticket) : t.Tidy v₀ v' stage := by
  cases stage with
  | staged => trivial
  | _ =>
    change v'.staged.get? t.ticket = none ∨ v'.staged.get? t.ticket = _
    rw [hu.staged hticket]
    exact h

end WriteTask

namespace Progress

variable {tasks : Nat → Option WriteTask} {turns : List Nat}

/-- Whatever the turns are, every task keeps tidy. -/
private theorem tidy_run (hapart : Apart tasks) (v : Volume) (turns : List Nat) :
    ∀ ⦃i t⦄, tasks i = some t →
      t.Tidy v (run tasks (start v) turns).volume ((run tasks (start v) turns).stage i) := by
  -- The own steps keep a task tidy, and those of the others have tickets of their own.
  refine forall_run (fun _ => WriteTask.Tidy.step) ?_ (fun _ _ _ => .inr rfl) turns
  intro i j t u hi hj hij stage v' htidy stage'
  exact htidy.of_confined (WriteTask.confined_step u stage' v') (hapart hi hj hij).1

/-- What is staged under a ticket that no task has stays as it is. -/
private theorem staged_of_others (p : Progress Volume) {ticket : Nat}
    (h : ∀ ⦃i t⦄, tasks i = some t → ticket ≠ t.ticket) (turns : List Nat) :
    (run tasks p turns).volume.staged.get? ticket = p.volume.staged.get? ticket := by
  refine relates_run (R := fun (v v' : Volume) => v'.staged.get? ticket = v.staged.get? ticket)
    (fun _ => rfl) (fun h h' => h'.trans h) (fun hi stage v => ?_) p turns
  exact (WriteTask.confined_step _ stage v).staged (h hi)

/-- When all tasks have come to their ends, nothing is staged that was not staged at first. -/
theorem staged_run (hapart : Apart tasks) (hcomplete : Complete tasks turns) (v : Volume)
    (ticket : Nat) :
    (run tasks (start v) turns).volume.staged.get? ticket = none ∨
      (run tasks (start v) turns).volume.staged.get? ticket = v.staged.get? ticket := by
  -- A ticket that no task has is never used; that of a task has been dropped at its end.
  by_cases h : ∀ ⦃i t⦄, tasks i = some t → ticket ≠ t.ticket
  · exact .inr (staged_of_others (start v) h turns)
  · simp only [not_forall, not_not] at h
    obtain ⟨i, t, hi, rfl⟩ := h
    have htidy := tidy_run hapart v turns hi
    obtain ⟨result, hended⟩ := hcomplete.exists_ended hi (start v)
    rw [hended] at htidy
    exact htidy

/-- Tasks that take turns change what their steps may change. -/
theorem alters_run {made placed : Location → Prop}
    (h : ∀ ⦃i t⦄, tasks i = some t → t.Nested ∧
      (∀ loc, t.folder.LeadsThrough loc → made loc) ∧ placed t.target.location)
    (p : Progress Volume) (turns : List Nat) :
    Alters made placed p.volume (run tasks p turns).volume := by
  refine relates_run (.refl _ _) .trans (fun hi stage v => ?_) p turns
  obtain ⟨hnested, hmade, hplaced⟩ := h hi
  refine (WriteTask.alters_step hnested stage v).mono hmade ?_
  rintro loc ⟨rfl, -⟩
  exact hplaced

end Progress

namespace Store

variable {s : Store} {stamp : Stamp} {items : List Evidence} {v v' : Volume}

/-! ### Tasks of a store -/

/-- The locations at which a store puts files. -/
def Places (s : Store) (items : List Evidence) (loc : Location) : Prop :=
  (∃ e t, (e, .ok t) ∈ s.requests items ∧ loc = t.path.location) ∨ loc = s.indexPath.location

/-- The locations at which a store may make folders: those that the path of its root leads through,
and below the root those around the places of its files. -/
def Reaches (s : Store) (items : List Evidence) (loc : Location) : Prop :=
  s.root.LeadsThrough loc ∨
    (s.root.location <+: loc ∧ ∃ place, s.Places items place ∧ loc <+: place)

/-- A task that writes to names below the root makes folders only where its store may. -/
private theorem nested_of_target {t : WriteTask} {names : List String} (hne : names ≠ [])
    (htarget : t.target = s.root.join (ofNames names)) (h : ∀ n ∈ names, IsName n)
    (hplace : s.Places items t.target.location) :
    t.Nested ∧ ∀ loc, t.folder.LeadsThrough loc → s.Reaches items loc := by
  refine ⟨⟨s.root, names, hne, htarget, h⟩, fun loc hloc => ?_⟩
  refine ((WriteTask.leadsThrough_folder hne htarget h).1 hloc).imp_right ?_
  rintro ⟨front, hfront, rfl⟩
  refine ⟨List.prefix_append _ _, _, hplace, ?_⟩
  -- The folders below the root are those of proper beginnings of the names.
  rw [htarget, Path.location_below s.root h, List.prefix_append_right_inj]
  exact hfront.trans (List.dropLast_prefix _)

/-- The task of an item has the place granted to the item for its target. -/
theorem granted_of_task {i : Nat} {task : WriteTask}
    (h : tasks (s.requests items) i = some task) :
    ∃ e t, (s.requests items)[i]? = some (e, .ok t) ∧ task = itemTask i e t ∧
      Target.Granted s.root t ∧ task.target = s.root.join (ofNames t.names) := by
  obtain ⟨e, t, hget, rfl⟩ := tasks_eq_some_iff.1 h
  have hgranted := (Target.of_mem_claim (List.mem_of_getElem? hget)).1
  refine ⟨e, t, hget, rfl, hgranted, ?_⟩
  rw [target_itemTask]
  exact congrArg Target.path hgranted.eq_below

/-- A task with a place granted for its target writes below the root. -/
theorem nested_of_granted {t : Target} (h : Target.Granted s.root t) (i : Nat) (e : Evidence) :
    (itemTask i e t).Nested := by
  refine ⟨s.root, t.names, h.ne_nil, ?_, h.isName⟩
  rw [target_itemTask]
  exact congrArg Target.path h.eq_below

/-- The task of an item writes below the root. -/
theorem nested_itemTask {i : Nat} {task : WriteTask}
    (hi : tasks (s.requests items) i = some task) : task.Nested := by
  obtain ⟨e, t, -, rfl, hgranted, -⟩ := granted_of_task hi
  exact nested_of_granted hgranted i e

/-- The task of an item makes folders and places its file only where its store may. -/
private theorem nested_task {i : Nat} {task : WriteTask}
    (h : tasks (s.requests items) i = some task) :
    task.Nested ∧ (∀ loc, task.folder.LeadsThrough loc → s.Reaches items loc) ∧
      s.Places items task.target.location := by
  obtain ⟨e, t, hget, rfl, hgranted, htarget⟩ := granted_of_task h
  have hplace : s.Places items (itemTask i e t).target.location :=
    .inl ⟨e, t, List.mem_of_getElem? hget, by rw [target_itemTask]⟩
  obtain ⟨hnested, hreaches⟩ := nested_of_target hgranted.ne_nil htarget hgranted.isName hplace
  exact ⟨hnested, hreaches, hplace⟩

/-- So does the task of the index. -/
theorem nested_indexTask (s : Store) (stamp : Stamp) (items : List Evidence)
    (settled : List Settled) :
    (s.indexTask stamp items settled).Nested ∧
      (∀ loc, (s.indexTask stamp items settled).folder.LeadsThrough loc → s.Reaches items loc) ∧
      s.Places items (s.indexTask stamp items settled).target.location := by
  have htarget : (s.indexTask stamp items settled).target
      = s.root.join (ofNames [Target.indexName]) := by
    rw [target_indexTask, indexPath, ofNames, String.intercalate_singleton]
  have hplace : s.Places items (s.indexTask stamp items settled).target.location :=
    .inr (by rw [target_indexTask])
  obtain ⟨hnested, hreaches⟩ :=
    nested_of_target (List.cons_ne_nil _ _) htarget (by decide) hplace
  exact ⟨hnested, hreaches, hplace⟩

/-- Whatever the turns are, the tasks of the items change only what their store may. -/
private theorem alters_items (s : Store) (items : List Evidence) (p : Progress Volume)
    (turns : List Nat) :
    Alters (s.Reaches items) (s.Places items) p.volume
      (Progress.run (tasks (s.requests items)) p turns).volume :=
  Progress.alters_run (fun _ _ hi => nested_task hi) p turns

/-! ### What a store leaves alone -/

/-- Nothing has changed at a location, unless a folder was missing there and the path of the root
leads through it. -/
def Spared (s : Store) (v v' : Volume) (loc : Location) : Prop :=
  v'.get? loc = v.get? loc ∨
    (v.get? loc = none ∧ v'.get? loc = some .folder ∧ s.root.LeadsThrough loc)

/-- A store changes nothing outside its root but what its root needs, takes nothing away, puts
files only at the places granted and at that of the index, and leaves nothing staged. -/
structure Contained (s : Store) (items : List Evidence) (v v' : Volume) : Prop where
  outside : ∀ {loc}, ¬ s.root.location <+: loc → s.Spared v v' loc
  /-- Where nothing stood there is nothing still, or a folder where the store may make one, or a
  file at one of its places. -/
  appears : ∀ {loc}, v.get? loc = none → v'.get? loc = none ∨
    (v'.get? loc = some .folder ∧ s.Reaches items loc) ∨
    (s.Places items loc ∧ ∃ bytes, v'.fileAt? loc = some bytes)
  folder : ∀ {loc}, v.get? loc = some .folder → v'.get? loc = some .folder
  file : ∀ {loc bytes}, v.fileAt? loc = some bytes → ∃ bytes', v'.fileAt? loc = some bytes'
  content : ∀ {loc bytes}, v.fileAt? loc = some bytes → ¬ s.Places items loc →
    v'.fileAt? loc = some bytes
  /-- What is staged in the end was staged before. -/
  staged : ∀ {ticket file}, v'.staged.get? ticket = some file → v.staged.get? ticket = some file

/-- The places of a store lie below its root. -/
private theorem location_prefix_of_places {loc : Location} (h : s.Places items loc) :
    s.root.location <+: loc := by
  rcases h with ⟨e, t, hmem, rfl⟩ | rfl
  · rw [(Target.of_mem_claim hmem).1.location]
    exact List.prefix_append _ _
  · rw [location_indexPath]
    exact List.prefix_append _ _

/-- Each clause is read off from the kind of change that a location has seen. -/
private theorem contained_of_alters (h : Alters (s.Reaches items) (s.Places items) v v')
    (hstaged : ∀ ticket, v'.staged.get? ticket = none ∨
      v'.staged.get? ticket = v.staged.get? ticket) : s.Contained items v v' where
  outside := by
    intro loc hloc
    cases h loc with
    | same heq => exact .inl heq
    | folder hmade hbefore hafter =>
      -- Of the folders that a store may make only those on the way of its root lie outside.
      exact .inr ⟨hbefore, hafter, hmade.resolve_right fun hbelow => hloc hbelow.1⟩
    | file hplaced _ _ _ => exact absurd (location_prefix_of_places hplaced) hloc
  appears := by
    intro loc hnone
    cases h loc with
    | same heq => exact .inl (heq.trans hnone)
    | folder hmade _ hafter => exact .inr (.inl ⟨hafter, hmade⟩)
    | file hplaced _ bytes hafter =>
      exact .inr (.inr ⟨hplaced, bytes, fileAt?_eq_some_iff.2 hafter⟩)
  folder := by
    intro loc hfolder
    cases h loc with
    | same heq => exact heq.trans hfolder
    | folder _ _ hafter => exact hafter
    | file _ hbefore _ _ => exact absurd hfolder hbefore
  file := by
    intro loc bytes hfile
    rw [fileAt?_eq_some_iff] at hfile
    cases h loc with
    | same heq => exact ⟨bytes, fileAt?_eq_some_iff.2 (heq.trans hfile)⟩
    | folder _ hbefore _ =>
      rw [hfile] at hbefore
      exact nomatch hbefore
    | file _ _ bytes' hafter => exact ⟨bytes', fileAt?_eq_some_iff.2 hafter⟩
  content := by
    intro loc bytes hfile hnot
    rw [fileAt?_eq_some_iff] at hfile ⊢
    cases h loc with
    | same heq => exact heq.trans hfile
    | folder _ hbefore _ =>
      rw [hfile] at hbefore
      exact nomatch hbefore
    | file hplaced _ _ _ => exact absurd hplaced hnot
  staged := by
    intro ticket file hfile
    rcases hstaged ticket with hnone | hsame
    · rw [hnone] at hfile
      exact nomatch hfile
    · exact hsame ▸ hfile

/-- The tasks of the items come first, that of the index comes last, and each of them tidies up. -/
private theorem contained_writeInTurns {turns : List Nat}
    (hcomplete : Progress.Complete (tasks (s.requests items)) turns) :
    s.Contained items v (s.writeInTurns stamp items turns v).volume := by
  unfold writeInTurns
  simp only
  -- The index is a task by itself, so that what holds of turns holds of it too.
  rw [volume_finish, ← Progress.volume_run_single]
  set last := Progress.run (tasks (s.requests items)) (.start v) turns with hlast
  set index := s.indexTask stamp items ((s.requests items).mapIdx (settleAt last.stage))
  have hitems : Alters (s.Reaches items) (s.Places items) v last.volume := by
    rw [hlast]
    exact alters_items s items (.start v) turns
  have hindex : Alters (s.Reaches items) (s.Places items) last.volume
      (Progress.run (Progress.single index) (.start last.volume)
        (List.replicate WriteTask.stepCount 0)).volume := by
    refine Progress.alters_run (fun i t hi => ?_) (.start last.volume) _
    rw [(Progress.eq_of_single hi).2]
    exact nested_indexTask s stamp items _
  refine contained_of_alters (hitems.trans hindex) fun ticket => ?_
  rcases Progress.staged_run (Progress.apart_single index) (Progress.complete_single index)
    last.volume ticket with hnone | hsame
  · exact .inl hnone
  · rw [hsame, hlast]
    exact Progress.staged_run (apart_tasks s items) hcomplete v ticket

/-- A step of an item's task leaves the place of the index alone, and all that is below it. -/
private theorem spared_step {i : Nat} {task : WriteTask}
    (h : tasks (s.requests items) i = some task) (stage : WriteTask.Stage) (v : Volume)
    {loc : Location} (hloc : s.indexPath.location <+: loc) :
    s.Spared v (task.step (stage, v)).2 loc := by
  have hnested := (nested_task h).1
  obtain ⟨e, t, -, rfl, hgranted, htarget⟩ := granted_of_task h
  rw [location_indexPath] at hloc
  -- No names granted start at the index.
  have hnot {front : List String} (hfront : front <+: t.names)
      (heq : loc = s.root.location ++ front) : False := by
    rw [heq, List.prefix_append_right_inj] at hloc
    obtain ⟨rest, hrest⟩ := hloc.trans hfront
    apply hgranted.ne_index
    rw [← hrest]
    rfl
  cases WriteTask.alters_step hnested stage v loc with
  | same heq => exact .inl heq
  | folder hmade hbefore hafter =>
    rcases (WriteTask.leadsThrough_folder hgranted.ne_nil htarget hgranted.isName).1 hmade with
      hroot | ⟨front, hfront, heq⟩
    · exact .inr ⟨hbefore, hafter, hroot⟩
    · exact (hnot (hfront.trans (List.dropLast_prefix _)) heq).elim
  | file hplaced _ _ _ =>
    refine (hnot List.prefix_rfl ?_).elim
    -- The file goes to the place granted, of which the index is no beginning.
    rw [hplaced.1, target_itemTask]
    exact hgranted.location

/-- What the first task makes with its first step is there in the end. -/
private theorem isFolder_persist {task : WriteTask} {loc : Location} {j : Journal}
    (h : tasks (s.requests items) 0 = some task)
    (hfolder : (task.step (.waiting, v)).2.isFolder loc = true) :
    ((s.persist stamp items).result v j).2.isFolder loc = true := by
  obtain ⟨n, hn⟩ : ∃ n, items.length = n + 1 := by
    obtain ⟨e, t, hget, -⟩ := tasks_eq_some_iff.1 h
    obtain ⟨hlt, -⟩ := List.getElem?_eq_some_iff.1 hget
    rw [length_requests] at hlt
    exact Nat.exists_eq_succ_of_ne_zero (Nat.ne_of_gt hlt)
  have hturns : Progress.inOrder 0 items.length
      = 0 :: (List.replicate 3 0 ++ Progress.inOrder 1 n) := by
    rw [hn, Progress.inOrder_succ]
    rfl
  rw [result_persist, write_eq_writeInTurns, hturns]
  simp only
  -- The folder is there after the first step, and neither the items nor the index take it away.
  have hfirst : (Progress.advance (tasks (s.requests items)) (.start v) 0).volume.isFolder loc
      = true := by
    rw [Progress.advance_of_some h]
    exact hfolder
  have hitems := (alters_items s items (.advance (tasks (s.requests items)) (.start v) 0)
    (List.replicate 3 0 ++ Progress.inOrder 1 n)).isFolder hfirst
  unfold writeInTurns
  simp only
  rw [volume_finish]
  exact ((WriteTask.run_spec _ _).1.grows).isFolder hitems

/-- An attempt to keep items, one after another or in turns, changes nothing outside the root but
what the path of the root leads through, and puts files only at the places granted and at that of
the index. No step of an item's task touches the place of the index or anything below it, unless
the path of the root leads through it. -/
theorem persist_contained (s : Store) (stamp : Stamp) (items : List Evidence) (v : Volume)
    (j : Journal) :
    s.Contained items v ((s.persist stamp items).result v j).2 ∧
      (∀ turns, Progress.Complete (tasks (s.requests items)) (turns items) →
        s.Contained items v ((s.persistInTurns stamp turns items).result v j).2) ∧
      (∀ i task, tasks (s.requests items) i = some task → ∀ stage v loc,
        s.indexPath.location <+: loc → s.Spared v (task.step (stage, v)).2 loc) ∧
      (".." ∉ s.root.segments → ∀ loc, s.root.LeadsThrough loc → loc <+: s.root.location) := by
  refine ⟨?_, fun turns hcomplete => ?_, fun _ _ h stage v _ hloc => spared_step h stage v hloc,
    fun hup _ h => h.prefix_location hup⟩
  · rw [result_persist, write_eq_writeInTurns]
    simp only
    -- One after another is one of the complete orders.
    exact contained_writeInTurns (complete_inOrder s items)
  · rw [result_persistInTurns]
    simp only
    exact contained_writeInTurns hcomplete

/-- Two items with the same name for their files, whose tasks take turns at being started. -/
theorem persist_contained_of_rivals :
    let s := Store.ofRoot ⟨"evidence"⟩
    let e : Evidence := ⟨"a-01", "a", .testing, .high, "", .null, ⟨"a.json"⟩⟩
    let e' : Evidence := ⟨"b-01", "b", .testing, .high, "", .null, ⟨"./a.json"⟩⟩
    let turns := [1, 0, 1, 0, 1, 0, 1, 0]
    Progress.Complete (tasks (s.requests [e, e'])) turns ∧
      s.Contained [e, e'] .empty ((s.persistInTurns ⟨.nil, ⟨"1970-01-01T00:00:00Z"⟩⟩
        (fun _ => turns) [e, e']).result Volume.empty .empty).2 := by
  intro s e e' turns
  have hcount : ∀ i < 2, WriteTask.stepCount ≤ [1, 0, 1, 0, 1, 0, 1, 0].count i := by decide
  have hcomplete : Progress.Complete (tasks (s.requests [e, e'])) turns :=
    s.complete_of_count hcount
  exact ⟨hcomplete, (persist_contained s _ _ _ _).2.1 (fun _ => turns) hcomplete⟩

/-- A root whose path passes by another folder, and by the place of its own index: keeping one item
makes a folder outside of the root that is not around it, and the first step of the item's task
makes a folder at the place of the index. -/
theorem persist_passes_by :
    let s := Store.ofRoot ⟨"x/../s/index.json/.."⟩
    let e : Evidence := ⟨"a-01", "a", .testing, .high, "", .null, ⟨"a.json"⟩⟩
    let v' := ((s.persist ⟨.nil, ⟨"1970-01-01T00:00:00Z"⟩⟩ [e]).result Volume.empty .empty).2
    (¬ s.root.location <+: ["x"] ∧ ¬ ["x"] <+: s.root.location ∧
      Volume.empty.get? ["x"] = none ∧ v'.get? ["x"] = some .folder) ∧
    ∃ task, tasks (s.requests [e]) 0 = some task ∧
      Volume.empty.get? s.indexPath.location = none ∧
      (task.step (.waiting, Volume.empty)).2.get? s.indexPath.location = some .folder := by
  intro s e v'
  have hclaim : Target.claim s.root [e] = [.ok (.below s.root ["a.json"])] := by decide +kernel
  have htask : tasks (s.requests [e]) 0 = some (itemTask 0 e (.below s.root ["a.json"])) := by
    rw [requests_of_claim hclaim]
    rfl
  refine ⟨⟨by decide +kernel, by decide +kernel, rfl, ?_⟩, _, htask, rfl, by decide +kernel⟩
  have hfolder : v'.isFolder ["x"] = true := isFolder_persist htask (by decide +kernel)
  exact (isFolder_iff_get?.1 hfolder).resolve_left (List.cons_ne_nil _ _)

end Store

end Scorecard
