import Mathlib.Logic.Function.Basic
import Scorecard.Proofs.Write

/-!
# Tasks that take turns

Several tasks work on one volume and take their steps in any order. Where no two of them have the
same ticket or the same place, what is sure of each of them stays sure whoever takes the next step;
so whatever the order of the steps, the bytes that a task has read back are its own and are there
when all is done. Tasks that run one after another are the case where each takes all its turns in
a row.

* `Progress.run`: tasks that take turns.
* `Progress.forall_run`, `Progress.relates_run`: what steps hand on is handed on by runs.
* `Progress.Assured`: what is sure of all tasks, `Progress.Assured.run`: whatever the turns are.
* `Progress.Complete.exists_ended`: with turns enough, every task comes to its end.
* `Progress.run_replicate`: a task that takes its turns in a row.
-/

namespace Scorecard

/-- Tasks at work: how far each has come, and what has become of the file system. -/
structure Progress (σ : Type) where
  stage : Nat → WriteTask.Stage
  volume : σ

namespace Progress

variable {tasks : Nat → Option WriteTask}

section

variable {σ : Type}

/-- Nobody has taken a step. -/
def start (v : σ) : Progress σ := ⟨fun _ => .waiting, v⟩

variable [FileSystem σ]

/-- The task with a number takes its next step. -/
def advance (tasks : Nat → Option WriteTask) (p : Progress σ) (i : Nat) : Progress σ :=
  match tasks i with
  | none => p
  | some t =>
    let next := t.step (p.stage i, p.volume)
    ⟨Function.update p.stage i next.1, next.2⟩

/-- The tasks take turns: the list says whose turn it is. -/
def run (tasks : Nat → Option WriteTask) (p : Progress σ) (turns : List Nat) : Progress σ :=
  turns.foldl (advance tasks) p

theorem run_append (p : Progress σ) (turns turns' : List Nat) :
    run tasks p (turns ++ turns') = run tasks (run tasks p turns) turns' :=
  List.foldl_append

theorem advance_of_none {i : Nat} (h : tasks i = none) (p : Progress σ) :
    advance tasks p i = p := by
  rw [advance, h]

theorem advance_of_some {i : Nat} {t : WriteTask} (h : tasks i = some t) (p : Progress σ) :
    advance tasks p i = ⟨Function.update p.stage i (t.step (p.stage i, p.volume)).1,
      (t.step (p.stage i, p.volume)).2⟩ := by
  rw [advance, h]

/-! ### What a run hands on -/

/-- What is true of every task and is handed on by its own steps and by those of all others is true
whatever the turns are. -/
theorem forall_run {P : WriteTask → σ → WriteTask.Stage → Prop} {p : Progress σ}
    (hown : ∀ {i t}, tasks i = some t → ∀ {stage v}, P t v stage →
      P t (t.step (stage, v)).2 (t.step (stage, v)).1)
    (hother : ∀ {i j t u}, tasks i = some t → tasks j = some u → i ≠ j →
      ∀ {stage v}, P t v stage → ∀ stage', P t (u.step (stage', v)).2 stage)
    (h : ∀ ⦃i t⦄, tasks i = some t → P t p.volume (p.stage i)) (turns : List Nat) :
    ∀ ⦃i t⦄, tasks i = some t → P t (run tasks p turns).volume ((run tasks p turns).stage i) := by
  induction turns generalizing p with
  | nil => exact h
  | cons j turns ih =>
    refine ih (p := advance tasks p j) fun i t hi => ?_
    cases hj : tasks j with
    | none =>
      rw [advance_of_none hj]
      exact h hi
    | some u =>
      rw [advance_of_some hj]
      -- Either it is the task's own step, or that of another one.
      by_cases hij : i = j
      · subst hij
        cases hi.symm.trans hj
        simp only [Function.update_self]
        exact hown hi (h hi)
      · simp only [Function.update_of_ne hij]
        exact hother hi hj hij (h hi) _

/-- A relation that every step of every task respects holds between what was there before the turns
and what is there after them. -/
theorem relates_run {R : σ → σ → Prop} (hrefl : ∀ v, R v v)
    (htrans : ∀ {v v' v''}, R v v' → R v' v'' → R v v'')
    (hstep : ∀ {i t}, tasks i = some t → ∀ stage v, R v (t.step (stage, v)).2)
    (p : Progress σ) (turns : List Nat) : R p.volume (run tasks p turns).volume := by
  induction turns generalizing p with
  | nil => exact hrefl _
  | cons j turns ih =>
    -- The first turn is taken before the rest of them.
    refine htrans ?_ (ih (advance tasks p j))
    cases hj : tasks j with
    | none =>
      rw [advance_of_none hj]
      exact hrefl _
    | some u =>
      rw [advance_of_some hj]
      exact hstep hj _ _

end

/-! ### Tasks apart from each other -/

variable {σ : Type} [FileSystem σ] {p : Progress Volume}

/-- No two tasks have the same ticket or the same place for their files. -/
def Apart (tasks : Nat → Option WriteTask) : Prop :=
  ∀ ⦃i j t u⦄, tasks i = some t → tasks j = some u → i ≠ j →
    t.ticket ≠ u.ticket ∧ t.target.location ≠ u.target.location

/-- What is sure of every task at its stage. -/
def Assured (tasks : Nat → Option WriteTask) (p : Progress Volume) : Prop :=
  ∀ ⦃i t⦄, tasks i = some t → t.Assured p.volume (p.stage i)

theorem assured_start (tasks : Nat → Option WriteTask) (v : Volume) : Assured tasks (start v) :=
  fun _ _ _ => trivial

/-- Whatever the turns are, what is sure stays sure. -/
theorem Assured.run (h : Assured tasks p) (hapart : Apart tasks) (turns : List Nat) :
    Assured tasks (run tasks p turns) := by
  refine forall_run (fun _ => WriteTask.Assured.step) ?_ h turns
  -- The step of another task keeps away from the ticket and the place of this one.
  intro i j t u hi hj hij stage v hassured stage'
  obtain ⟨hticket, htarget⟩ := hapart hi hj hij
  exact hassured.of_confined (WriteTask.confined_step u stage' v) hticket htarget

/-! ### Coming to the end -/

/-- Every task has as many turns as it needs to come to its end. -/
def Complete (tasks : Nat → Option WriteTask) (turns : List Nat) : Prop :=
  ∀ ⦃i t⦄, tasks i = some t → WriteTask.stepCount ≤ turns.count i

/-- With every turn a task comes further, until it has ended. -/
private theorem rank_run {i : Nat} {t : WriteTask} (h : tasks i = some t) (p : Progress σ)
    (turns : List Nat) :
    min ((p.stage i).rank + turns.count i) WriteTask.stepCount
      ≤ ((run tasks p turns).stage i).rank := by
  induction turns generalizing p with
  | nil => exact Nat.min_le_left _ _
  | cons j turns ih =>
    refine Nat.le_trans ?_ (ih (advance tasks p j))
    by_cases hij : j = i
    · subst hij
      have hstep := t.rank_step (p.stage j) p.volume
      rw [advance_of_some h]
      simp only [Function.update_self, List.count_cons_self]
      omega
    · -- The turn of another task leaves the stage as it is.
      have hstage : (advance tasks p j).stage i = p.stage i := by
        cases hj : tasks j with
        | none => rw [advance_of_none hj]
        | some u =>
          rw [advance_of_some hj]
          exact Function.update_of_ne (Ne.symm hij) _ _
      exact Nat.le_of_eq (by rw [hstage, List.count_cons_of_ne hij])

/-- Where every task has its turns, every task comes to its end. -/
theorem Complete.exists_ended {turns : List Nat} (h : Complete tasks turns) {i : Nat}
    {t : WriteTask} (hi : tasks i = some t) (p : Progress σ) :
    ∃ result, (run tasks p turns).stage i = .ended result := by
  apply WriteTask.Stage.exists_eq_ended
  -- The rank has room for as many turns as there are steps.
  have hturns := h hi
  have hrank := rank_run hi p turns
  omega

/-! ### One after another -/

/-- A task that takes `n` turns in a row. -/
theorem run_replicate {i : Nat} {t : WriteTask} (h : tasks i = some t) (p : Progress σ) (n : Nat) :
    run tasks p (List.replicate n i) =
      ⟨Function.update p.stage i (Nat.repeat t.step n (p.stage i, p.volume)).1,
        (Nat.repeat t.step n (p.stage i, p.volume)).2⟩ := by
  induction n with
  | zero =>
    change p = ⟨Function.update p.stage i (p.stage i), p.volume⟩
    rw [Function.update_eq_self]
  | succ n ih =>
    rw [List.replicate_succ', run_append, ih]
    change advance tasks _ i = _
    rw [advance_of_some h]
    -- The last of the steps goes on from the stage that the steps before it have come to.
    simp only [Function.update_self, Function.update_idem]
    rfl

/-- A task that is alone. -/
def single (t : WriteTask) : Nat → Option WriteTask
  | 0 => some t
  | _ + 1 => none

theorem eq_of_single {t u : WriteTask} {i : Nat} (h : single t i = some u) : i = 0 ∧ u = t := by
  cases i with
  | zero => exact ⟨rfl, (Option.some.inj h).symm⟩
  | succ i => exact nomatch h

theorem apart_single (t : WriteTask) : Apart (single t) := by
  intro i j u u' hi hj hij
  exact absurd ((eq_of_single hi).1.trans (eq_of_single hj).1.symm) hij

theorem complete_single (t : WriteTask) :
    Complete (single t) (List.replicate WriteTask.stepCount 0) := by
  intro i u hi
  exact Nat.le_of_eq (by rw [(eq_of_single hi).1, List.count_replicate_self])

/-- A task that takes all its steps is one that is alone and has all its turns. -/
theorem volume_run_single (t : WriteTask) (v : Volume) :
    (run (single t) (start v) (List.replicate WriteTask.stepCount 0)).volume = (t.run v).2 := by
  rw [run_replicate (i := 0) (t := t) rfl, WriteTask.run_eq]
  rfl

theorem run_replicate_of_none {i : Nat} (h : tasks i = none) (p : Progress σ) (n : Nat) :
    run tasks p (List.replicate n i) = p := by
  induction n with
  | zero => rfl
  | succ n ih =>
    rw [List.replicate_succ', run_append, ih]
    exact advance_of_none h p

/-- Each of `n` tasks takes all its turns before the next one does, from the `first` on. -/
def inOrder (first n : Nat) : List Nat :=
  (List.range' first n).flatMap fun i => List.replicate WriteTask.stepCount i

theorem inOrder_succ (first n : Nat) :
    inOrder first (n + 1) = List.replicate WriteTask.stepCount first ++ inOrder (first + 1) n := by
  unfold inOrder
  rw [List.range'_succ, List.flatMap_cons]

theorem stepCount_le_count_inOrder {first n i : Nat} (h : first ≤ i) (h' : i < first + n) :
    WriteTask.stepCount ≤ (inOrder first n).count i := by
  -- The turns of the first task come first; the others are in the rest.
  induction n generalizing first with
  | zero => omega
  | succ n ih =>
    rw [inOrder_succ, List.count_append]
    by_cases hi : i = first
    · rw [hi, List.count_replicate_self]
      exact Nat.le_add_right _ _
    · exact Nat.le_trans (ih (by omega) (by omega)) (Nat.le_add_left _ _)

end Progress

end Scorecard
