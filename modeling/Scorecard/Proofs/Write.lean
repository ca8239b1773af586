import Scorecard.Proofs.Volume
import Scorecard.Volume.Write

/-!
# Steps of a writing task

A step of a task touches the place of its target and what is staged under its ticket, and nothing
else; at most it makes folders. What is sure of the task at a stage is handed on by its own steps
and by the steps of all others that are about another place and another ticket, so that the bytes
a task has read back are the ones it was to write, and they are still there.

* `WriteTask.Assured`: what is sure of a task at a stage.
* `WriteTask.Assured.step`: its own step hands this on.
* `WriteTask.Confined`, `WriteTask.confined_step`: what a step may touch.
* `WriteTask.Assured.of_confined`: the step of another task hands this on too.
* `WriteTask.rank_step`: every step leads on.
* `WriteTask.run_spec`: a task from its beginning to its end.
-/

namespace Scorecard.WriteTask

open Volume

variable {t u : WriteTask} {v v' v'' : Volume} {stage : Stage} {σ : Type} [FileSystem σ]

/-! ### What a step may touch -/

/-- A change that touches no file but the target's, and stages or drops nothing but under the
ticket of the task. -/
structure Confined (t : WriteTask) (v v' : Volume) : Prop where
  grows : Grows (· = t.target.location) v v'
  staged : ∀ {ticket}, ticket ≠ t.ticket → v'.staged.get? ticket = v.staged.get? ticket

theorem Confined.refl (t : WriteTask) (v : Volume) : Confined t v v :=
  ⟨.refl _ _, fun _ => rfl⟩

theorem Confined.trans (h : Confined t v v') (h' : Confined t v' v'') : Confined t v v'' :=
  ⟨h.grows.trans h'.grows, fun hne => (h'.staged hne).trans (h.staged hne)⟩

/-- Making the folders stays with the task. -/
private theorem confined_prepare (t : WriteTask) (v : Volume) : Confined t v (t.prepare v).2 := by
  -- Folders are all that comes, with or without a fault.
  obtain ⟨hgrows, hstaged⟩ := grows_makeFolders (· = t.target.location) v t.folder
  have hmake : Confined t v (v.makeFolders t.folder).1 := ⟨hgrows, fun _ => by rw [hstaged]⟩
  rw [prepare_eq]
  split
  · next hresult =>
    rw [hresult] at hmake
    exact hmake
  · next hresult =>
    rw [hresult] at hmake
    exact hmake

/-- Staging a file under the ticket stays with the task. -/
private theorem confined_addStaged (t : WriteTask) (v : Volume) (s : Staged) :
    Confined t v (v.addStaged t.ticket s) := by
  refine ⟨⟨fun h => h, fun _ => .inl rfl⟩, fun {ticket} hne => ?_⟩
  rw [get?_staged_addStaged, if_neg hne]

/-- Dropping what is staged under the ticket stays with the task. -/
private theorem confined_dropStaged (t : WriteTask) (v : Volume) :
    Confined t v (v.dropStaged t.ticket) := by
  refine ⟨⟨fun h => h, fun _ => .inl rfl⟩, fun {ticket} hne => ?_⟩
  rw [get?_staged_dropStaged, if_neg hne]

/-- Staging the file stays with the task. -/
private theorem confined_stage (t : WriteTask) (v : Volume) : Confined t v (t.stage v).2 := by
  rw [stage_eq]
  split
  · -- A missing folder is reported, and nothing is staged then.
    split
    · exact confined_addStaged t v _
    · exact .refl t v
  · exact .refl t v

/-- Placing the file stays with the task. -/
private theorem confined_place (t : WriteTask) (v : Volume) : Confined t v (t.place v).2 := by
  rw [place_eq]
  split
  · exact .refl t v
  · split
    · next hsave =>
      -- A file saved at the target is all that the saving brings; what was staged goes.
      obtain ⟨-, hgrows, hstaged⟩ := save_eq_ok hsave
      have hsaved : Confined t v _ := ⟨hgrows, fun _ => by rw [hstaged]⟩
      exact hsaved.trans (confined_dropStaged t _)
    · exact confined_dropStaged t v

/-- A step touches only the place of the target and what is staged under the ticket. -/
theorem confined_step (t : WriteTask) (stage : Stage) (v : Volume) :
    Confined t v (t.step (stage, v)).2 := by
  cases stage with
  | waiting => exact confined_prepare t v
  | prepared => exact confined_stage t v
  | staged => exact confined_place t v
  | placed => exact .refl t v
  | ended result => exact .refl t v

/-! ### What is sure at a stage -/

/-- What is sure of a task that has come to a stage: its bytes are staged, then they stand at the
target, and in the end they are what has been read back and can still be read. -/
def Assured (t : WriteTask) (v : Volume) : Stage → Prop
  | .staged => ∃ folder, v.staged.get? t.ticket = some ⟨folder, t.bytes⟩
  | .placed => v.fileAt? t.target.location = some t.bytes
  | .ended (.ok readBack) => readBack = t.bytes ∧ v.contents t.target = .ok t.bytes
  | _ => True

/-- Once the folders are made nothing has to be assured yet. -/
private theorem assured_prepare (t : WriteTask) (v : Volume) :
    t.Assured (t.prepare v).2 (t.prepare v).1 := by
  rw [prepare_eq]
  split
  · trivial
  · trivial

/-- Once the file is staged its bytes are those of the task. -/
private theorem assured_stage (t : WriteTask) (v : Volume) :
    t.Assured (t.stage v).2 (t.stage v).1 := by
  rw [stage_eq]
  split
  · next loc _ =>
    split
    · refine ⟨loc, ?_⟩
      rw [get?_staged_addStaged, if_pos rfl]
    · trivial
  · trivial

/-- Once the file is placed its bytes are those of the task. -/
private theorem Assured.place (h : t.Assured v .staged) :
    t.Assured (t.place v).2 (t.place v).1 := by
  obtain ⟨folder, hstaged⟩ := h
  rw [WriteTask.place_eq]
  rw [hstaged]
  simp only
  -- A file that cannot be saved ends the task with a fault, of which nothing is sure.
  split
  · next hsave => exact (save_eq_ok hsave).1
  · trivial

/-- What is read back is what has been placed. -/
private theorem Assured.readBack (h : t.Assured v .placed) :
    t.Assured v (.ended (v.contents t.target)) := by
  cases hcontents : v.contents t.target with
  | error f => trivial
  | ok readBack =>
    -- What is read stands at the target, and there stands what was to be written.
    have hread := (contents_eq_ok_iff.1 hcontents).2.2
    have heq : readBack = t.bytes := Option.some.inj (hread.symm.trans h)
    exact ⟨heq, heq ▸ hcontents⟩

/-- A step of the task hands on what is sure. -/
theorem Assured.step (h : t.Assured v stage) :
    t.Assured (t.step (stage, v)).2 (t.step (stage, v)).1 := by
  cases stage with
  | waiting => exact assured_prepare t v
  | prepared => exact assured_stage t v
  | staged => exact h.place
  | placed => exact h.readBack
  | ended result => exact h

/-- The step of another task, with another ticket and another target, hands on what is sure. -/
theorem Assured.of_confined (h : t.Assured v stage) (hu : Confined u v v')
    (hticket : t.ticket ≠ u.ticket) (htarget : t.target.location ≠ u.target.location) :
    t.Assured v' stage := by
  cases stage with
  | waiting => trivial
  | prepared => trivial
  | staged =>
    obtain ⟨folder, hstaged⟩ := h
    exact ⟨folder, (hu.staged hticket).trans hstaged⟩
  -- The file stands elsewhere than the other target, and the way to it grows only.
  | placed => exact hu.grows.fileAt? htarget h
  | ended result =>
    cases result with
    | error f => trivial
    | ok readBack => exact ⟨h.1, hu.grows.contents htarget h.2⟩

/-- The bytes that a task has read back are its own, and are still there. -/
theorem Assured.of_result (h : t.Assured v stage) {readBack : ByteArray}
    (hresult : stage.result = .ok readBack) :
    readBack = t.bytes ∧ v.contents t.target = .ok t.bytes := by
  cases stage with
  | ended result =>
    change result = .ok readBack at hresult
    rw [hresult] at h
    exact h
  | _ => exact nomatch hresult

/-! ### Coming to the end -/

/-- How many steps lead to a stage. -/
def Stage.rank : Stage → Nat
  | .waiting => 0
  | .prepared => 1
  | .staged => 2
  | .placed => 3
  | .ended _ => stepCount

/-- A step leads on, or the task has ended. -/
theorem rank_step (t : WriteTask) (stage : Stage) (v : σ) :
    min (stage.rank + 1) stepCount ≤ (t.step (stage, v)).1.rank := by
  cases stage with
  | waiting =>
    change _ ≤ (t.prepare v).1.rank
    unfold prepare
    -- Every fault leads to the end at once, and the end has the highest rank.
    split
    · exact Nat.le_refl 1
    · exact Nat.le_of_ble_eq_true rfl
  | prepared =>
    change _ ≤ (t.stage v).1.rank
    unfold WriteTask.stage
    split
    · split
      · exact Nat.le_refl 2
      · exact Nat.le_of_ble_eq_true rfl
    · exact Nat.le_of_ble_eq_true rfl
  | staged =>
    change _ ≤ (t.place v).1.rank
    unfold place
    split
    · exact Nat.le_of_ble_eq_true rfl
    · split
      · exact Nat.le_refl 3
      · exact Nat.le_of_ble_eq_true rfl
  | placed => exact Nat.le_refl _
  | ended result => exact Nat.min_le_right _ _

/-- A stage that all steps lead to is the end. -/
theorem Stage.exists_eq_ended {stage : Stage} (h : stepCount ≤ stage.rank) :
    ∃ result, stage = .ended result := by
  cases stage with
  | ended result => exact ⟨result, rfl⟩
  | _ => exact absurd h (by decide)

/-! ### A whole task -/

/-- After any number of steps the task is assured, and has stayed with its own. -/
private theorem repeat_step (t : WriteTask) (v : Volume) (n : Nat) :
    t.Assured (Nat.repeat t.step n (.waiting, v)).2 (Nat.repeat t.step n (.waiting, v)).1 ∧
      Confined t v (Nat.repeat t.step n (.waiting, v)).2 := by
  induction n with
  | zero => exact ⟨trivial, .refl t v⟩
  | succ n ih =>
    obtain ⟨hassured, hconfined⟩ := ih
    exact ⟨hassured.step, hconfined.trans (confined_step t _ _)⟩

/-- The result of a task and what it leaves are those of its last stage. -/
theorem run_eq (t : WriteTask) (v : σ) :
    t.run v = ((Nat.repeat t.step stepCount (.waiting, v)).1.result,
      (Nat.repeat t.step stepCount (.waiting, v)).2) := by
  unfold run
  generalize Nat.repeat t.step stepCount (.waiting, v) = last
  rfl

/-- A task that takes all its steps stays with its own place and ticket, and what it reads back
is what it was to write. -/
theorem run_spec (t : WriteTask) (v : Volume) :
    Confined t v (t.run v).2 ∧
      ∀ {readBack}, (t.run v).1 = .ok readBack →
        readBack = t.bytes ∧ (t.run v).2.contents t.target = .ok t.bytes := by
  -- Four steps lead from the beginning to the end, and each of them hands on what is sure.
  obtain ⟨hassured, hconfined⟩ := repeat_step t v stepCount
  rw [run_eq]
  generalize Nat.repeat t.step stepCount (.waiting, v) = last at hassured hconfined
  exact ⟨hconfined, fun hresult => hassured.of_result hresult⟩

end Scorecard.WriteTask
