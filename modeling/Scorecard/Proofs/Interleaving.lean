import Mathlib.Data.List.Induction
import Scorecard.Proofs.TaskIsolation
import Scorecard.Proofs.Containment
import Scorecard.Proofs.Index
import Scorecard.Proofs.Twins
import Scorecard.Volume.Disk

/-!
# Interleavings

Tasks that keep out of each other's way go on as if each of them were alone: whatever the order of
their steps, each comes as far as it would on the volume they start from, and the volume they share
shows at every location what one of them has brought there, or what was there at first. So it does
not matter in which order their steps are taken, once each has come to its end.

A store's tasks keep out of each other's way where no place granted lies beneath another one. Then
it makes no difference whether the items are written one after another or in turns.

* `Progress.Follows`: a task is where it would be on its own, `Progress.Follows.own` and
  `Progress.Follows.other`: after a step of its own or of another task.
* `Progress.Mirrors`: each task is where it would be on its own.
* `Progress.Mirrors.run`: whatever the turns are.
* `Progress.run_eq_of_complete`: all orders of all steps come to the same.
* `Store.persistInTurns_eq_persist`: keeping items in turns and one after another;
  `Store.persistInTurns_ne_persist_of_link`: on a disk with links the two may differ.
-/

open Scorecard.Path (IsName ofNames)

namespace Scorecard

open Volume

namespace Progress

variable {tasks : Nat → Option WriteTask} {v₀ : Volume} {p p' : Progress Volume} {n n' : Nat → Nat}

/-- Every task is a writer below some root, and keeps out of the way of all others. -/
structure Separate (tasks : Nat → Option WriteTask) : Prop where
  nested : ∀ ⦃i t⦄, tasks i = some t → t.Nested
  clear : ∀ ⦃i j t u⦄, tasks i = some t → tasks j = some u → i ≠ j → t.Clear u

/-- A task has come to the stage at which it would be after `k` steps on a volume of its own, and
the volume on which others work too shows what it would have brought to its own. -/
structure Follows (t : WriteTask) (v₀ : Volume) (k : Nat) (stage : WriteTask.Stage) (v : Volume) :
    Prop where
  stage : stage = (t.alone v₀ k).1
  sees : t.Sees (t.alone v₀ k).2 v
  brought : ∀ {loc}, (t.alone v₀ k).2.get? loc ≠ v₀.get? loc →
    v.get? loc = (t.alone v₀ k).2.get? loc

theorem follows_zero (t : WriteTask) (v₀ : Volume) : Follows t v₀ 0 .waiting v₀ :=
  ⟨rfl, .refl t v₀, fun _ => rfl⟩

section

variable {t u : WriteTask} {k : Nat} {stage : WriteTask.Stage} {v : Volume}

/-- The task's own step takes it one step further on its own volume, and changes both volumes in
the same way. -/
theorem Follows.own (h : Follows t v₀ k stage v) (ht : t.Nested) :
    Follows t v₀ (k + 1) (t.step (stage, v)).1 (t.step (stage, v)).2 ∧
      Copies (t.alone v₀ k).2 (t.alone v₀ (k + 1)).2 v (t.step (stage, v)).2 := by
  obtain ⟨hstage, hcopies, hsees⟩ := h.sees.step_alone ht
  rw [← h.stage] at hstage hcopies hsees
  refine ⟨⟨hstage, hsees, fun {loc} hne => ?_⟩, hcopies⟩
  -- A location that this step has left alone shows what was brought before.
  rcases hcopies loc with ⟨ha, hv⟩ | heq
  · rw [ha] at hne ⊢
    rw [hv]
    exact h.brought hne
  · exact heq

/-- What a task has brought to a location is not touched by the step of another one. -/
private theorem get?_step_of_brought {a : Volume} {loc : Location}
    (ha : Alters t.folder.LeadsThrough
      (fun loc => loc = t.target.location ∧ ¬ t.folder.LeadsThrough loc) v₀ a)
    (hne : a.get? loc ≠ v₀.get? loc) (hv : v.get? loc = a.get? loc) (hclear : t.Clear u)
    (hu : u.Nested) : (u.step (stage, v)).2.get? loc = a.get? loc := by
  cases WriteTask.alters_step hu stage v loc with
  | same heq => exact heq.trans hv
  | folder _ hbefore _ =>
    -- Something stands there, as what the task has brought is something.
    rw [hv] at hbefore
    cases ha loc with
    | same heq => exact absurd heq hne
    | folder _ _ hafter =>
      rw [hbefore] at hafter
      cases hafter
    | file _ _ _ hafter =>
      rw [hbefore] at hafter
      cases hafter
  | file hplaced hbefore _ _ =>
    -- No file takes the place of a folder, and the other target is another one.
    rw [hv] at hbefore
    cases ha loc with
    | same heq => exact absurd heq hne
    | folder _ _ hafter => exact absurd hafter hbefore
    | file hplaced' _ _ _ => exact absurd (hplaced'.1.symm.trans hplaced.1) hclear.target

/-- The step of a task that keeps out of the way leaves a task where it is. -/
theorem Follows.other (h : Follows t v₀ k stage v) (ht : t.Nested) (hclear : t.Clear u)
    (hu : u.Nested) (stage' : WriteTask.Stage) :
    Follows t v₀ k stage (u.step (stage', v)).2 :=
  ⟨h.stage, h.sees.of_other hclear hu, fun hne =>
    get?_step_of_brought (WriteTask.alters_alone ht v₀ k) hne (h.brought hne) hclear hu⟩

end

/-- Each task is where it would be after its steps on a volume of its own, and the volume that the
tasks share shows what they have brought to theirs, and nothing else that is new. -/
structure Mirrors (tasks : Nat → Option WriteTask) (v₀ : Volume) (n : Nat → Nat)
    (p : Progress Volume) : Prop where
  follows : ∀ ⦃i t⦄, tasks i = some t → Follows t v₀ (n i) (p.stage i) p.volume
  left : ∀ {loc}, (∀ ⦃i t⦄, tasks i = some t → (t.alone v₀ (n i)).2.get? loc = v₀.get? loc) →
    p.volume.get? loc = v₀.get? loc
  staged : ∀ {ticket}, (∀ ⦃i t⦄, tasks i = some t → ticket ≠ t.ticket) →
    p.volume.staged.get? ticket = v₀.staged.get? ticket

theorem mirrors_start (tasks : Nat → Option WriteTask) (v₀ : Volume) :
    Mirrors tasks v₀ (fun _ => 0) (start v₀) :=
  ⟨fun _ t _ => follows_zero t v₀, fun _ => rfl, fun _ => rfl⟩

/-- A turn without a task passes by. -/
private theorem Mirrors.pass (h : Mirrors tasks v₀ n p) {j : Nat} (hj : tasks j = none) (k : Nat) :
    Mirrors tasks v₀ (Function.update n j k) p := by
  have hsame {i : Nat} {t : WriteTask} (hi : tasks i = some t) : Function.update n j k i = n i := by
    -- A number without a task is not the number of a task.
    refine Function.update_of_ne (fun hij => ?_) _ _
    rw [hij, hj] at hi
    cases hi
  refine ⟨fun i t hi => ?_, fun {loc} hleft => h.left fun i t hi => ?_, h.staged⟩
  · rw [hsame hi]
    exact h.follows hi
  · rw [← hsame hi]
    exact hleft hi

/-- Whoever takes the next step, each task is where it would be on its own. -/
theorem Mirrors.advance (h : Mirrors tasks v₀ n p) (hseparate : Separate tasks) (j : Nat) :
    Mirrors tasks v₀ (Function.update n j (n j + 1)) (advance tasks p j) := by
  cases hj : tasks j with
  | none =>
    rw [advance_of_none hj]
    exact h.pass hj _
  | some u =>
    rw [advance_of_some hj]
    have hu := hseparate.nested hj
    obtain ⟨hown, hcopies⟩ := (h.follows hj).own hu
    refine ⟨fun i t hi => ?_, fun {loc} hleft => ?_, fun {ticket} hticket => ?_⟩
    · by_cases hij : i = j
      · subst hij
        cases hi.symm.trans hj
        simp only [Function.update_self]
        exact hown
      · simp only [Function.update_of_ne hij]
        exact (h.follows hi).other (hseparate.nested hi) (hseparate.clear hi hj hij) hu _
    · -- What nobody has brought has not been brought by this step either.
      have hnext := hleft hj
      simp only [Function.update_self] at hnext
      rcases hcopies loc with ⟨ha, hv⟩ | heq
      · refine hv.trans (h.left fun i t hi => ?_)
        by_cases hij : i = j
        · subst hij
          cases hi.symm.trans hj
          exact ha.symm.trans hnext
        · have hother := hleft hi
          simp only [Function.update_of_ne hij] at hother
          exact hother
      · exact heq.trans hnext
    · exact ((WriteTask.confined_step u _ _).staged (hticket hj)).trans (h.staged hticket)

/-- Whatever the turns are, each task is where it would be on its own. -/
theorem Mirrors.run (hseparate : Separate tasks) (v₀ : Volume) (turns : List Nat) :
    Mirrors tasks v₀ turns.count (run tasks (start v₀) turns) := by
  -- The last turn is taken on what the turns before it have led to.
  induction turns using List.reverseRecOn with
  | nil => exact mirrors_start tasks v₀
  | append_singleton turns j ih =>
    have hcount : (turns ++ [j]).count = Function.update turns.count j (turns.count j + 1) := by
      funext i
      rw [List.count_append, List.count_singleton]
      by_cases hij : i = j
      · subst hij
        simp
      · rw [Function.update_of_ne hij]
        simp [Ne.symm hij]
    rw [hcount, run_append]
    exact ih.advance hseparate j

/-- How far each task has come on its own says what the volume is. -/
theorem Mirrors.volume_eq (h : Mirrors tasks v₀ n p) (h' : Mirrors tasks v₀ n' p')
    (halone : ∀ ⦃i t⦄, tasks i = some t → t.alone v₀ (n i) = t.alone v₀ (n' i)) :
    p.volume = p'.volume := by
  apply Volume.ext
  · apply Table.ext_get?
    intro loc
    change p.volume.get? loc = p'.volume.get? loc
    by_cases hleft : ∀ ⦃i t⦄, tasks i = some t → (t.alone v₀ (n i)).2.get? loc = v₀.get? loc
    · rw [h.left hleft, h'.left fun i t hi => halone hi ▸ hleft hi]
    · simp only [not_forall] at hleft
      -- Some task has brought something here, which both volumes show.
      obtain ⟨i, t, hi, hne⟩ := hleft
      rw [(h.follows hi).brought hne, (h'.follows hi).brought (halone hi ▸ hne), halone hi]
  · apply Table.ext_get?
    intro ticket
    by_cases hothers : ∀ ⦃i t⦄, tasks i = some t → ticket ≠ t.ticket
    · rw [h.staged hothers, h'.staged hothers]
    · simp only [not_forall, not_not] at hothers
      obtain ⟨i, t, hi, rfl⟩ := hothers
      rw [(h.follows hi).sees.staged, (h'.follows hi).sees.staged, halone hi]

/-- Tasks that keep out of each other's way come to the same ends and leave the same volume in
whatever order they take their steps. -/
theorem run_eq_of_complete (hseparate : Separate tasks) {turns turns' : List Nat}
    (h : Complete tasks turns) (h' : Complete tasks turns') (v : Volume) :
    (∀ ⦃i t⦄, tasks i = some t →
      (run tasks (start v) turns).stage i = (run tasks (start v) turns').stage i) ∧
    (run tasks (start v) turns).volume = (run tasks (start v) turns').volume := by
  have hmirrors := Mirrors.run hseparate v turns
  have hmirrors' := Mirrors.run hseparate v turns'
  -- Steps beyond the end of a task change nothing on a volume of its own.
  have halone ⦃i : Nat⦄ ⦃t : WriteTask⦄ (hi : tasks i = some t) :
      t.alone v (turns.count i) = t.alone v (turns'.count i) :=
    (WriteTask.alone_of_le (h hi)).trans (WriteTask.alone_of_le (h' hi)).symm
  refine ⟨fun i t hi => ?_, hmirrors.volume_eq hmirrors' halone⟩
  rw [(hmirrors.follows hi).stage, (hmirrors'.follows hi).stage, halone hi]

end Progress

namespace Store

variable {s : Store} {items : List Evidence}

/-- No place granted is that of another item, or lies beneath it. -/
def PlacesApart (s : Store) (items : List Evidence) : Prop :=
  (s.requests items).Pairwise fun a b =>
    ∀ t u, a.2 = .ok t → b.2 = .ok u → t.path.Apart u.path

/-- The places of two different items are apart, whichever comes first. -/
private theorem apart_of_ne (h : s.PlacesApart items) {i j : Nat} {e e' : Evidence}
    {t u : Target} (hi : (s.requests items)[i]? = some (e, .ok t))
    (hj : (s.requests items)[j]? = some (e', .ok u)) (hij : i ≠ j) : t.path.Apart u.path := by
  obtain ⟨hilt, hi⟩ := List.getElem?_eq_some_iff.1 hi
  obtain ⟨hjlt, hj⟩ := List.getElem?_eq_some_iff.1 hj
  have hpairwise := List.pairwise_iff_getElem.1 h
  rcases Nat.lt_or_gt_of_ne hij with hlt | hgt
  · exact hpairwise i j hilt hjlt hlt t u (congrArg Prod.snd hi) (congrArg Prod.snd hj)
  · exact (hpairwise j i hjlt hilt hgt u t (congrArg Prod.snd hj) (congrArg Prod.snd hi)).symm

/-- The way to a target goes by the place of another one only where the root's own path leads. -/
private theorem leadsThrough_root {task task' : WriteTask} {t u : Target}
    (ht : Target.Granted s.root t) (htask : task.target = s.root.join (ofNames t.names))
    (hapart : t.path.Apart u.path) (hu : task'.target.location = u.path.location)
    (h : task.folder.LeadsThrough task'.target.location) :
    s.root.LeadsThrough task'.target.location := by
  refine ((WriteTask.leadsThrough_folder ht.ne_nil htask ht.isName).1 h).resolve_right ?_
  rintro ⟨front, hfront, heq⟩
  apply hapart.notAbove
  rw [← hu, heq, ht.location, List.prefix_append_right_inj]
  exact hfront.trans (List.dropLast_prefix _)

/-- Tasks of items keep out of each other's way where their targets are apart. -/
theorem clear_of_apart {i j : Nat} {task task' : WriteTask}
    (hi : tasks (s.requests items) i = some task) (hj : tasks (s.requests items) j = some task')
    (hij : i ≠ j) (hapart : task.target.Apart task'.target) : task.Clear task' := by
  obtain ⟨hticket, hlocation⟩ := apart_tasks s items hi hj hij
  obtain ⟨e, t, -, rfl, ht, htarget⟩ := granted_of_task hi
  obtain ⟨e', u, -, rfl, hu, hutarget⟩ := granted_of_task hj
  rw [target_itemTask, target_itemTask] at hapart
  -- Only the way of the root can go by a target, and the root is the same for all.
  refine ⟨hticket, hlocation, fun hway => ?_, fun hway => ?_⟩
  · rw [WriteTask.leadsThrough_folder hu.ne_nil hutarget hu.isName]
    exact .inl (leadsThrough_root ht htarget hapart (by rw [target_itemTask]) hway)
  · rw [WriteTask.leadsThrough_folder ht.ne_nil htarget ht.isName]
    exact .inl (leadsThrough_root hu hutarget hapart.symm (by rw [target_itemTask]) hway)

/-- Where the places granted are apart, the tasks of the items keep out of each other's way. -/
theorem separate_tasks (h : s.PlacesApart items) :
    Progress.Separate (tasks (s.requests items)) := by
  refine ⟨fun i task hi => nested_itemTask hi, fun i j task task' hi hj hij => ?_⟩
  refine clear_of_apart hi hj hij ?_
  obtain ⟨e, t, hgeti, rfl⟩ := tasks_eq_some_iff.1 hi
  obtain ⟨e', u, hgetj, rfl⟩ := tasks_eq_some_iff.1 hj
  exact apart_of_ne h hgeti hgetj hij

/-! ### One after another or in turns -/

variable {stamp stamp' : Stamp} {turns turns' : List Nat} {v : Volume}

/-- Where the places granted are apart, what comes of writing does not depend on the turns. -/
theorem writeInTurns_eq (h : s.PlacesApart items)
    (hturns : Progress.Complete (tasks (s.requests items)) turns)
    (hturns' : Progress.Complete (tasks (s.requests items)) turns') (stamp : Stamp) (v : Volume) :
    s.writeInTurns stamp items turns v = s.writeInTurns stamp items turns' v := by
  obtain ⟨hstage, hvolume⟩ := Progress.run_eq_of_complete (separate_tasks h) hturns hturns' v
  unfold writeInTurns
  simp only
  set last := Progress.run (tasks (s.requests items)) (.start v) turns
  set last' := Progress.run (tasks (s.requests items)) (.start v) turns'
  have hsettled : (s.requests items).mapIdx (settleAt last.stage)
      = (s.requests items).mapIdx (settleAt last'.stage) := by
    apply List.ext_getElem?
    intro i
    rw [List.getElem?_mapIdx, List.getElem?_mapIdx]
    cases hget : (s.requests items)[i]? with
    | none => rfl
    | some w =>
      obtain ⟨e, claimed⟩ := w
      cases claimed with
      | error error => rfl
      | ok t =>
        -- Only requests with a place have a task whose end counts.
        unfold settleAt
        rw [hstage (tasks_eq_some_iff.2 ⟨e, t, hget, rfl⟩)]
  rw [hsettled, hvolume]

/-- Two attempts to keep the same items come to the same but for the stamps of their indexes: they
have the same manifest and the same volume, except that in the index, if it is written, the second
one has its own stamp. -/
structure AlikeButStamp (s : Store) (stamp : Stamp) (a b : Manifest × Volume) : Prop where
  manifest : b.1 = a.1
  elsewhere : ∀ {loc}, loc ≠ s.indexPath.location → b.2.get? loc = a.2.get? loc
  staged : b.2.staged = a.2.staged
  index : (a.1.indexPath = none ∧ b.2 = a.2) ∨
    (a.1.indexPath = some s.indexPath ∧ ∃ ix, s.ReadsIndex a.2 ix ∧
      s.ReadsIndex b.2 (ix.stamped stamp))

/-- Once the items are settled, another stamp makes no difference but in the index. -/
private theorem alikeButStamp_finish (hstamp : stamp.Legible) (hstamp' : stamp'.Legible)
    {settled : List Settled} (hlength : settled.length < UInt64.size) (v : Volume) :
    s.AlikeButStamp stamp'
      ((s.finish stamp items settled v).manifest s, (s.finish stamp items settled v).volume)
      ((s.finish stamp' items settled v).manifest s, (s.finish stamp' items settled v).volume) := by
  have htwins := indexTwins_finish (s := s) (v := v) hstamp hstamp' items settled rfl
  refine ⟨htwins.manifest, htwins.elsewhere, htwins.staged, ?_⟩
  refine htwins.index.imp_right fun ⟨hpath, hcontents, hcontents'⟩ => ?_
  have hread := ofBytes_indexOf hstamp hlength
  refine ⟨hpath (settleIndex_bytes hread _), indexOf stamp settled, ⟨_, hcontents, hread⟩, ?_⟩
  -- The two indexes differ in their stamps alone.
  rw [← indexOf_stamp stamp stamp']
  exact ⟨_, hcontents', ofBytes_indexOf hstamp' hlength⟩

/-- Where no place granted is that of another item or lies beneath it, keeping the items in turns
comes to the same as keeping them one after another, whatever the turns are in which the tasks are
brought to their ends: the manifest and the volume are the same. If the indexes have different
stamps, they differ in these and in nothing else. -/
theorem persistInTurns_eq_persist (s : Store) {items : List Evidence}
    (hplaces : s.PlacesApart items) (turns : List Evidence → List Nat)
    (hturns : Progress.Complete (tasks (s.requests items)) (turns items)) (stamp : Stamp)
    (v : Volume) (j : Journal) :
    (s.persistInTurns stamp turns items).result v j = (s.persist stamp items).result v j ∧
      ∀ stamp' : Stamp, stamp.Legible → stamp'.Legible → items.length < UInt64.size →
        s.AlikeButStamp stamp' ((s.persist stamp items).result v j)
          ((s.persistInTurns stamp' turns items).result v j) := by
  -- Writing in order is writing in turns, and all complete turns come to the same.
  have hsame (stamp : Stamp) : s.writeInTurns stamp items (turns items) v
      = s.write stamp items v := by
    rw [write_eq_writeInTurns]
    exact writeInTurns_eq hplaces hturns (complete_inOrder s items) stamp v
  refine ⟨?_, fun stamp' hstamp hstamp' hlength => ?_⟩
  · rw [result_persistInTurns, result_persist, hsame]
  · rw [result_persistInTurns, result_persist, hsame, write_eq_writeInTurns, write_eq_writeInTurns]
    unfold writeInTurns
    refine alikeButStamp_finish hstamp hstamp' ?_ _
    rw [List.length_mapIdx, length_requests]
    exact hlength

/-- The places of two items are apart if none of them is above the other. -/
private theorem placesApart_pair {e e' : Evidence} {t u : Target} (hitems : items = [e, e'])
    (hclaim : Target.claim s.root items = [.ok t, .ok u]) (h : t.path.Apart u.path) :
    s.PlacesApart items := by
  unfold PlacesApart requests
  rw [hclaim, hitems]
  refine List.pairwise_cons.2 ⟨fun w hw t' u' ht hu => ?_, List.pairwise_singleton _ _⟩
  rw [List.mem_singleton.1 hw] at hu
  cases ht
  cases hu
  exact h

/-- Two items whose files stand in one folder, written in turns and one after another, and indexed
under different stamps. -/
theorem persistInTurns_eq_persist_of_siblings :
    let s := Store.ofRoot ⟨"evidence"⟩
    let items : List Evidence := [
      ⟨"a-01", "a", .testing, .high, "", .null, ⟨"testing/a.json"⟩⟩,
      ⟨"b-01", "b", .testing, .high, "", .null, ⟨"testing/b.json"⟩⟩]
    let turns := [1, 0, 0, 1, 1, 0, 1, 0]
    let stamp : Stamp := ⟨.nil, ⟨"1970-01-01T00:00:00Z"⟩⟩
    let stamp' : Stamp := ⟨⟨"67e55044-10b1-426f-9247-bb680e5fe0c8"⟩, ⟨"2024-02-29T23:59:59.5Z"⟩⟩
    (s.PlacesApart items ∧ Progress.Complete (tasks (s.requests items)) turns) ∧
      (stamp.Legible ∧ stamp'.Legible ∧ items.length < UInt64.size) ∧
      (s.persistInTurns stamp (fun _ => turns) items).result Volume.empty .empty
        = (s.persist stamp items).result Volume.empty .empty ∧
      s.AlikeButStamp stamp' ((s.persist stamp items).result Volume.empty .empty)
        ((s.persistInTurns stamp' (fun _ => turns) items).result Volume.empty .empty) := by
  intro s items turns stamp stamp'
  have hclaim : Target.claim s.root items
      = [.ok (.below s.root ["testing", "a.json"]), .ok (.below s.root ["testing", "b.json"])] := by
    decide +kernel
  have hplaces : s.PlacesApart items :=
    placesApart_pair rfl hclaim ⟨by decide +kernel, by decide +kernel⟩
  have hcount : ∀ i < 2, WriteTask.stepCount ≤ [1, 0, 0, 1, 1, 0, 1, 0].count i := by decide
  have hturns : Progress.Complete (tasks (s.requests items)) turns := s.complete_of_count hcount
  have hstamp : Stamp.Legible ⟨.nil, ⟨"1970-01-01T00:00:00Z"⟩⟩ :=
    ⟨by decide +kernel, by decide +kernel⟩
  have hstamp' : Stamp.Legible
      ⟨⟨"67e55044-10b1-426f-9247-bb680e5fe0c8"⟩, ⟨"2024-02-29T23:59:59.5Z"⟩⟩ :=
    ⟨by decide +kernel, by decide +kernel⟩
  have hlength : items.length < UInt64.size := by decide
  obtain ⟨hsame, halike⟩ := persistInTurns_eq_persist s hplaces (fun _ => turns) hturns stamp
    .empty .empty
  exact ⟨⟨hplaces, hturns⟩, ⟨hstamp, hstamp', hlength⟩, hsame,
    halike stamp' hstamp hstamp' hlength⟩

/-- On a disk with links, the order matters: a link leads to a folder that the second item's task
makes. Only if this task comes first, the file of the first item can be written through the link,
and stands in that folder. -/
theorem persistInTurns_ne_persist_of_link :
    let s := Store.ofRoot ⟨"s"⟩
    let d := (Disk.ofVolume (Volume.empty.addFolder [] "s")).addLink ["s"] "b" ⟨"a"⟩
    let items : List Evidence := [
      ⟨"a-01", "a", .testing, .high, "", .null, ⟨"b/x.json"⟩⟩,
      ⟨"b-01", "b", .testing, .high, "", .null, ⟨"a/y.json"⟩⟩]
    let turns := [1, 1, 1, 1, 0, 0, 0, 0]
    let stamp : Stamp := ⟨.nil, ⟨"1970-01-01T00:00:00Z"⟩⟩
    let loc := ["s", "a", "x.json"]
    (s.PlacesApart items ∧ Progress.Complete (tasks (s.requests items)) turns) ∧
      ((s.persistInTurns stamp (fun _ => turns) items).result d .empty).2.volume.get? loc
        ≠ ((s.persist stamp items).result d .empty).2.volume.get? loc := by
  intro s d items turns stamp loc
  have hclaim : Target.claim s.root items
      = [.ok (.below s.root ["b", "x.json"]), .ok (.below s.root ["a", "y.json"])] := by
    decide +kernel
  have hplaces : s.PlacesApart items :=
    placesApart_pair rfl hclaim ⟨by decide +kernel, by decide +kernel⟩
  have hcount : ∀ i < 2, WriteTask.stepCount ≤ [1, 1, 1, 1, 0, 0, 0, 0].count i := by decide
  have hturns : Progress.Complete (tasks (s.requests items)) turns := s.complete_of_count hcount
  have hthere : ((s.writeInTurns stamp items turns d).volume.volume.get? loc).isSome = true := by
    decide +kernel
  have hmissing : ((s.write stamp items d).volume.volume.get? loc).isSome = false := by
    decide +kernel
  -- From here on it is enough that the two differ.
  clear_value s d items turns stamp loc
  refine ⟨⟨hplaces, hturns⟩, fun hsame => ?_⟩
  rw [result_persistInTurns, result_persist] at hsame
  simp only at hsame
  rw [hsame, hmissing] at hthere
  exact nomatch hthere

end Store

end Scorecard
