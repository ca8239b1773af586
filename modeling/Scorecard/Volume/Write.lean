import Scorecard.Volume.FileSystem

/-!
# Writing in steps

A file is written so that no reader ever sees a part of it: the folders around it are made,
the file is staged in its folder, placed at its target in one step, and read back. Other
writers may take steps in between.

* `WriteTask.step`: one step of a task.
* `WriteTask.run`: a task from its beginning to its end.
* `WriteTask.prepare_eq`, `WriteTask.stage_eq`, `WriteTask.place_eq`: the steps on a volume.
-/

namespace Scorecard

/-- A file to be written. -/
structure WriteTask where
  /-- Tells the staged files of different tasks apart. -/
  ticket : Nat
  target : Path
  bytes : ByteArray

/-- How far a task has come. -/
inductive WriteTask.Stage
  | waiting
  /-- The folder of the target is there. -/
  | prepared
  /-- The file is staged in that folder. -/
  | staged
  /-- The file is at its target. -/
  | placed
  /-- The task has ended: with the bytes read back, or with a fault. -/
  | ended (result : Except Volume.Fault ByteArray)

namespace WriteTask

/-- The folder of the target. -/
def folder (t : WriteTask) : Path :=
  match t.target.parent? with
  | none | some ⟨""⟩ => ⟨"."⟩
  | some p => p

section

variable {σ : Type} [FileSystem σ]

open FileSystem

/-- Makes the folders of the target. -/
def prepare (t : WriteTask) (v : σ) : Stage × σ :=
  match makeFolders v t.folder with
  | (v, .ok ()) => (.prepared, v)
  | (v, .error f) => (.ended (.error f), v)

/-- Stages the file in the folder of the target. -/
def stage (t : WriteTask) (v : σ) : Stage × σ :=
  match resolve v t.folder with
  | .ok loc =>
    if isFolder v loc then (.staged, addStaged v t.ticket ⟨loc, t.bytes⟩)
    else (.ended (.error .noFolder), v)
  | .error f => (.ended (.error f), v)

/-- Places the staged file at the target; where that fails, drops it. -/
def place (t : WriteTask) (v : σ) : Stage × σ :=
  match staged? v t.ticket with
  | none => (.ended (.error .missing), v)
  | some s =>
    match save v t.target s.bytes with
    | .ok v => (.placed, dropStaged v t.ticket)
    | .error f => (.ended (.error f), dropStaged v t.ticket)

/-- Takes the next step. -/
def step (t : WriteTask) : Stage × σ → Stage × σ
  | (.waiting, v) => t.prepare v
  | (.prepared, v) => t.stage v
  | (.staged, v) => t.place v
  | (.placed, v) => (.ended (contents v t.target), v)
  | (.ended r, v) => (.ended r, v)

/-- The number of steps after which every task has ended. -/
def stepCount : Nat := 4

/-- What a stage says of the task's result. -/
def Stage.result : Stage → Except Volume.Fault ByteArray
  | ended r => r
  | _ => .error .missing

/-- Takes all steps of the task, one after another. -/
def run (t : WriteTask) (v : σ) : Except Volume.Fault ByteArray × σ :=
  let (stage, v) := Nat.repeat t.step stepCount (.waiting, v)
  (stage.result, v)

end

/-! ### Steps on a volume -/

theorem prepare_eq (t : WriteTask) (v : Volume) :
    t.prepare v = match v.makeFolders t.folder with
      | (v, .ok ()) => (.prepared, v)
      | (v, .error f) => (.ended (.error f), v) := by
  have hmake : FileSystem.makeFolders v t.folder = v.makeFolders t.folder := rfl
  unfold prepare
  rw [hmake]
  rcases v.makeFolders t.folder with ⟨v', fault | ⟨⟩⟩
  · rfl
  · rfl

theorem stage_eq (t : WriteTask) (v : Volume) :
    t.stage v = match v.resolve t.folder with
      | .ok loc =>
        if v.isFolder loc then (.staged, v.addStaged t.ticket ⟨loc, t.bytes⟩)
        else (.ended (.error .noFolder), v)
      | .error f => (.ended (.error f), v) := by
  have hresolve : FileSystem.resolve v t.folder = v.resolve t.folder := rfl
  unfold stage
  rw [hresolve]
  cases v.resolve t.folder with
  | ok loc => rfl
  | error fault => rfl

theorem place_eq (t : WriteTask) (v : Volume) :
    t.place v = match v.staged.get? t.ticket with
      | none => (.ended (.error .missing), v)
      | some s =>
        match v.save t.target s.bytes with
        | .ok v => (.placed, v.dropStaged t.ticket)
        | .error f => (.ended (.error f), v.dropStaged t.ticket) := by
  have hstaged : FileSystem.staged? v t.ticket = v.staged.get? t.ticket := rfl
  have hsave (bytes : ByteArray) : FileSystem.save v t.target bytes = v.save t.target bytes := rfl
  unfold place
  rw [hstaged]
  cases v.staged.get? t.ticket with
  | none => rfl
  | some s =>
    simp only
    rw [hsave]
    cases v.save t.target s.bytes with
    | ok v' => rfl
    | error fault => rfl

end WriteTask

end Scorecard
