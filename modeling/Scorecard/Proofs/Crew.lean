import Scorecard.Evaluation.Basic
import Scorecard.Proofs.Reports

/-!
# Crews of workers

The criteria of a rubric are judged by a crew, no more of them at a time than there are workers. A
worker takes a criterion that nobody has taken, judges it and files the result in the place of the
criterion. So the results stand in the order of the rubric in the end, whoever has got done first;
and an evaluation by a crew is the evaluation in which the criteria are judged one after another.
The surroundings may also have no workers to give.

* `Crew.advance`, `Crew.work`: one turn, and all turns.
* `Crew.work_induction`: what every turn keeps holds in the end.
* `Crew.InPlace.advance`, `Crew.inPlace_work`: results stand in their places.
* `Crew.countP_isRunning_work_le`: no more criteria are being judged than there are workers.
* `Crew.exists_finishes`: with one worker at least, all criteria can get done.
* `Evaluator.evaluateWith_eq_evaluate`: an evaluation by a crew.
-/

namespace Scorecard

/-- How far the work on one thing of a list has come. -/
inductive Crew.Stage (β : Type)
  | waiting
  | running
  | done (result : β)

namespace Crew.Stage

variable {β : Type}

/-- Whether somebody is working on it. -/
def isRunning : Stage β → Bool
  | running => true
  | _ => false

/-- What has come of it. -/
def result? : Stage β → Option β
  | done b => some b
  | _ => none

end Crew.Stage

/-- What the surroundings give to an evaluation: no workers, for some reason, or workers who take
turns. A turn is that of the worker who takes or has taken the thing with the number. -/
inductive Crew
  | missing (reason : String)
  | turns (order : List Nat)

namespace Crew

variable {α β : Type} {workers : Nat} {job : α → β} {as : List α} {stages : List (Stage β)}

/-- One turn: a thing that waits is taken, if there is a worker left for it, and the result of one
that has been taken is filed in its place. -/
def advance (workers : Nat) (job : α → β) (as : List α) (stages : List (Stage β)) (i : Nat) :
    List (Stage β) :=
  match as[i]?, stages[i]? with
  | some _, some .waiting =>
    if stages.countP Stage.isRunning < workers then stages.set i .running else stages
  | some a, some .running => stages.set i (.done (job a))
  | _, _ => stages

/-- All turns, from the start on. -/
def work (workers : Nat) (job : α → β) (as : List α) (order : List Nat) : List (Stage β) :=
  order.foldl (advance workers job as) (List.replicate as.length .waiting)

/-- What the crew hands over: the results in their places. -/
def results (workers : Nat) (job : α → β) (as : List α) : Crew → Except String (List β)
  | missing reason => .error reason
  | turns order => .ok ((work workers job as order).filterMap Stage.result?)

/-- Why there are no workers, if there are none. -/
def missing? : Crew → Option String
  | missing reason => some reason
  | turns _ => none

/-- If there are workers, they get done with everything. -/
def Finishes (workers : Nat) (job : α → β) (as : List α) : Crew → Prop
  | missing _ => True
  | turns order => ∀ stage ∈ work workers job as order, stage.result?.isSome = true

/-- What holds at the start and is kept by every turn holds after all turns. -/
theorem work_induction {P : List (Stage β) → Prop}
    (hstart : P (List.replicate as.length .waiting))
    (hadvance : ∀ stages i, P stages → P (advance workers job as stages i)) (order : List Nat) :
    P (work workers job as order) := by
  unfold work
  generalize List.replicate as.length Stage.waiting = stages at hstart
  induction order generalizing stages with
  | nil => exact hstart
  | cons i order ih => exact ih _ (hadvance stages i hstart)

/-! ### Results in their places -/

/-- What is done has the result of the thing in its place. -/
structure InPlace (job : α → β) (as : List α) (stages : List (Stage β)) : Prop where
  length : stages.length = as.length
  result : ∀ {i : Nat} {a b}, as[i]? = some a → stages[i]? = some (Stage.done b) → b = job a

theorem inPlace_start (job : α → β) (as : List α) :
    InPlace job as (List.replicate as.length .waiting) := by
  refine ⟨List.length_replicate, fun {i a b} _ h => ?_⟩
  exact nomatch List.eq_of_mem_replicate (List.mem_of_getElem? h)

/-- A stage that is put in the place of another one may be done only with the result of its own
job. -/
private theorem InPlace.set (h : InPlace job as stages) {i : Nat} {stage : Stage β}
    (hstage : ∀ {a b}, as[i]? = some a → stage = Stage.done b → b = job a) :
    InPlace job as (stages.set i stage) := by
  refine ⟨List.length_set.trans h.length, fun {k a b} ha hb => ?_⟩
  rw [List.getElem?_set] at hb
  split at hb
  · next hik =>
    subst hik
    split at hb
    · exact hstage ha (Option.some.inj hb)
    · exact nomatch hb
  · exact h.result ha hb

/-- A turn files nothing out of place. -/
theorem InPlace.advance (h : InPlace job as stages) (workers i : Nat) :
    InPlace job as (advance workers job as stages i) := by
  unfold Crew.advance
  split
  · split
    · -- A thing that is taken has no result yet.
      exact h.set fun _ hdone => nomatch hdone
    · exact h
  · next a ha _ =>
    -- The result that is filed is that of the thing in this place.
    refine h.set fun {a' b} ha' hdone => ?_
    cases ha.symm.trans ha'
    exact (Stage.done.inj hdone).symm
  · exact h

/-- Whatever the turns are, nothing is filed out of place. -/
theorem inPlace_work (workers : Nat) (job : α → β) (as : List α) (order : List Nat) :
    InPlace job as (work workers job as order) :=
  work_induction (inPlace_start job as) (fun _ i h => h.advance workers i) order

/-- Once all is done, the results are those of all things in their order. -/
theorem InPlace.filterMap_result? (h : InPlace job as stages)
    (hdone : ∀ stage ∈ stages, stage.result?.isSome = true) :
    stages.filterMap Stage.result? = as.map job := by
  have hstages : stages = as.map fun a => Stage.done (job a) := by
    apply List.ext_getElem (by rw [List.length_map, h.length])
    intro i hi hi'
    rw [List.getElem_map]
    rw [List.length_map] at hi'
    have hstage := hdone _ (List.getElem_mem hi)
    have hresult {b : β} (hb : stages[i] = Stage.done b) : b = job as[i] :=
      h.result (List.getElem?_eq_getElem hi') (by rw [List.getElem?_eq_getElem hi, hb])
    cases hget : stages[i] with
    | done b => rw [hresult hget]
    | waiting | running =>
      rw [hget] at hstage
      exact absurd hstage Bool.false_ne_true
  rw [hstages, List.filterMap_map, ← List.filterMap_eq_map]
  rfl

/-! ### Workers -/

/-- There are never more jobs running than there are workers. -/
private theorem countP_isRunning_advance_le (h : stages.countP Stage.isRunning ≤ workers)
    (i : Nat) : (advance workers job as stages i).countP Stage.isRunning ≤ workers := by
  unfold advance
  split
  · next hstage =>
    obtain ⟨hi, hget⟩ := List.getElem?_eq_some_iff.1 hstage
    split
    · next hleft =>
      -- One more worker is at work, and there has been one left.
      rw [List.countP_set hi, hget]
      exact hleft
    · exact h
  · next hstage =>
    -- Filing a result sets a worker free.
    obtain ⟨hi, hget⟩ := List.getElem?_eq_some_iff.1 hstage
    rw [List.countP_set hi, hget]
    exact Nat.le_trans (Nat.sub_le _ 1) h
  · exact h

/-- There are never more things being worked on than there are workers. -/
theorem countP_isRunning_work_le (workers : Nat) (job : α → β) (as : List α) (order : List Nat) :
    (work workers job as order).countP Stage.isRunning ≤ workers := by
  refine work_induction (P := fun stages => stages.countP Stage.isRunning ≤ workers) ?_
    (fun _ i h => countP_isRunning_advance_le h i) order
  -- Nobody is at work before the first turn.
  rw [List.countP_replicate]
  exact Nat.zero_le _

/-! ### Getting done -/

/-- The first thing that waits gets done in two turns. -/
private theorem advance_advance (h : 0 < workers) (job : α → β) (front : List α) (a : α)
    (back : List α) (waiting : List (Stage β))
    (hwaiting : ∀ stage ∈ waiting, stage = Stage.waiting) :
    let as := front ++ a :: back
    let before := front.map fun a => Stage.done (job a)
    advance workers job as
        (advance workers job as (before ++ Stage.waiting :: waiting) front.length) front.length
      = before ++ Stage.done (job a) :: waiting := by
  intro as before
  have hlength : before.length = front.length := List.length_map _
  have ha : as[front.length]? = some a := by simp [as]
  have hget (stage : Stage β) : (before ++ stage :: waiting)[front.length]? = some stage := by
    simp [← hlength]
  have hset (stage stage' : Stage β) : (before ++ stage :: waiting).set front.length stage'
      = before ++ stage' :: waiting := by
    simp [← hlength]
  -- Nobody is at work, so that there is a worker left.
  have hidle : (before ++ Stage.waiting :: waiting).countP Stage.isRunning = 0 := by
    rw [List.countP_eq_zero]
    intro stage hstage
    rcases List.mem_append.1 hstage with hdone | hrest
    · obtain ⟨_, -, rfl⟩ := List.mem_map.1 hdone
      exact Bool.false_ne_true
    · rcases List.mem_cons.1 hrest with rfl | hrest
      · exact Bool.false_ne_true
      · rw [hwaiting stage hrest]
        exact Bool.false_ne_true
  have hfirst : advance workers job as (before ++ Stage.waiting :: waiting) front.length
      = before ++ Stage.running :: waiting := by
    unfold advance
    rw [ha, hget]
    simp only
    rw [hidle, if_pos h, hset]
  rw [hfirst]
  unfold advance
  rw [ha, hget]
  simp only
  rw [hset]

/-- From where the first jobs are done and none is running, turns can be taken that do the others,
one after another. -/
private theorem exists_turns (h : 0 < workers) (job : α → β) (front back : List α) :
    ∃ order : List Nat, order.foldl (advance workers job (front ++ back))
        ((front.map fun a => Stage.done (job a)) ++ List.replicate back.length Stage.waiting)
      = (front ++ back).map fun a => Stage.done (job a) := by
  induction back generalizing front with
  | nil => exact ⟨[], by simp⟩
  | cons a back ih =>
    obtain ⟨order, horder⟩ := ih (front ++ [a])
    refine ⟨front.length :: front.length :: order, ?_⟩
    have hstep := advance_advance h job front a back
      (List.replicate back.length Stage.waiting) fun _ => List.eq_of_mem_replicate
    simp only at hstep
    rw [List.foldl_cons, List.foldl_cons, List.length_cons, List.replicate_succ, hstep]
    simpa using horder

/-- Where there is a worker, there are turns in which everything gets done. -/
theorem exists_finishes (h : 0 < workers) (job : α → β) (as : List α) :
    ∃ order, (turns order).Finishes workers job as := by
  obtain ⟨order, horder⟩ := exists_turns h job [] as
  refine ⟨order, fun stage hstage => ?_⟩
  have hwork : work workers job as order = as.map fun a => Stage.done (job a) := horder
  rw [hwork] at hstage
  obtain ⟨_, -, rfl⟩ := List.mem_map.1 hstage
  rfl

end Crew

/-! ### Evaluations by a crew -/

namespace Evaluator

/-- Evaluates a rubric for a language by a crew: the criteria are judged in the crew's turns, and
reported in their order once all of them are done. -/
def evaluateWith (e : Evaluator) (crew : Crew) (r : Rubric) (s : Snapshot) (language : String) :
    Attempt EvaluationError Evaluation := do
  Attempt.ofExcept (e.checkInput r s)
  let language := Text.normal language
  Journal.emit (.evaluationStarted language r.criteria.length e.workers)
  let results ← Attempt.ofExcept
    ((crew.results e.workers (e.decide s language) r.criteria).mapError .noWorkers)
  let ds ← collect results
  let evaluation := assemble r ds
  Attempt.ofExcept (evaluation.outcome.checkReferences evaluation.evidence)
  Journal.emit (.evaluationFinished evaluation.outcome.totalScore evaluation.outcome.maxScore
    evaluation.evidence.length)
  return evaluation

/-- If there are workers, the crew gets done with the criteria of a rubric. -/
def Manned (e : Evaluator) (crew : Crew) (r : Rubric) (s : Snapshot) (language : String) : Prop :=
  crew.Finishes e.workers (e.decide s (Text.normal language)) r.criteria

/-- Whatever the turns are in which the criteria get done, an evaluation by a crew is one in which
they are judged one after another. -/
theorem evaluateWith_eq_evaluate {e : Evaluator} {order : List Nat} {r : Rubric} {s : Snapshot}
    {language : String} (h : e.Manned (.turns order) r s language) :
    e.evaluateWith (.turns order) r s language = e.evaluate r s language := by
  have hresults : (Crew.turns order).results e.workers (e.decide s (Text.normal language))
      r.criteria = .ok (r.criteria.map (e.decide s (Text.normal language))) :=
    congrArg Except.ok ((Crew.inPlace_work _ _ _ order).filterMap_result? h)
  unfold evaluateWith evaluate
  simp only
  rw [hresults]
  rfl

end Evaluator

end Scorecard
