import Scorecard.Engine.Basic
import Scorecard.Proofs.Publish
import Scorecard.Proofs.Totality

/-!
# What comes out of a run

A run hands the evidence of its evaluation to a store and publishes the outcome with whatever
manifest the store gives back. Neither of these can fail, so that a run fails if and only if its
evaluation does.

* `Engine.conduct_of_error`, `Engine.conduct_of_ok`: the parts of a run, one after another.
* `Engine.outcome_of_ok`: a run whose evaluation has an outcome.
* `Engine.publish_succeeds_and_run_fails_iff`: only the evaluation can fail.
-/

namespace Scorecard.Engine

variable {E : Engine} {keep : List Evidence → Filed Manifest} {r : Rubric} {s : Snapshot}

/-- What comes out of a run, and the volume after it. -/
def outcome (E : Engine) (keep : List Evidence → Filed Manifest) (r : Rubric) (s : Snapshot)
    (v : Volume) (j : Journal) : Except Failure Report × Volume :=
  ((E.run keep r s v).run j).1

/-- The journal in which the span of a run is open. -/
def opened (s : Snapshot) (j : Journal) : Journal :=
  { j with spans := j.spans ++ [⟨s.normalLanguage⟩] }

/-- What comes out of keeping the evidence of an evaluation and publishing its outcome. -/
def settle (keep : List Evidence → Filed Manifest) (r : Rubric) (v : Volume) (j : Journal)
    (ev : Evaluation) : Except Failure Report × Volume :=
  let ((m, v'), j') := ((keep ev.evidence).run v).run j
  match (r.publish ev.outcome m).result j' with
  | .error error => (.error (.publish error), v')
  | .ok output => (.ok ⟨ev, m, output⟩, v')

/-- The journal after a run, once its span is closed again. -/
def closed (j j' : Journal) : Journal := { j' with spans := j.spans }

/-- A run with any way of evaluating. -/
def conduct (evaluation : Attempt EvaluationError Evaluation)
    (keep : List Evidence → Filed Manifest) (r : Rubric) (s : Snapshot) (v : Volume) :
    Logged (Except Failure Report × Volume) :=
  Journal.within ⟨s.normalLanguage⟩ do
    match ← evaluation.run with
    | .error error => return (.error (.evaluation error), v)
    | .ok evaluation =>
      let (manifest, v) ← (keep evaluation.evidence).run v
      match ← (r.publish evaluation.outcome manifest).run with
      | .error error => return (.error (.publish error), v)
      | .ok output =>
        Journal.flush
        return (.ok ⟨evaluation, manifest, output⟩, v)

theorem run_eq_conduct (E : Engine) (keep : List Evidence → Filed Manifest) (r : Rubric)
    (s : Snapshot) (v : Volume) :
    E.run keep r s v = conduct (E.evaluator.evaluate r s s.language) keep r s v := rfl

section Conduct

variable {x : Attempt EvaluationError Evaluation} {v v' : Volume} {j j₁ j₂ j₃ : Journal}
  {ev : Evaluation} {m : Manifest}

/-- An evaluation that fails ends the run before anything is kept. -/
theorem conduct_of_error {error : EvaluationError}
    (h : x.run.run (opened s j) = (.error error, j₁)) (keep : List Evidence → Filed Manifest)
    (r : Rubric) (v : Volume) :
    (conduct x keep r s v).run j = ((.error (.evaluation error), v), closed j j₁) :=
  Journal.run_within (Logged.run_bind h)

/-- An outcome that is not published ends the run after its evidence has been kept. -/
theorem conduct_of_publish_error {error : PublishError}
    (h : x.run.run (opened s j) = (.ok ev, j₁))
    (hkeep : ((keep ev.evidence).run v).run j₁ = ((m, v'), j₂))
    (hpublish : (r.publish ev.outcome m).run.run j₂ = (.error error, j₃)) :
    (conduct x keep r s v).run j = ((.error (.publish error), v'), closed j j₃) :=
  Journal.run_within ((Logged.run_bind h).trans
    ((Logged.run_bind hkeep).trans (Logged.run_bind hpublish)))

/-- Otherwise the counts are reported in the end. -/
theorem conduct_of_ok {output : ScoreOutput} (h : x.run.run (opened s j) = (.ok ev, j₁))
    (hkeep : ((keep ev.evidence).run v).run j₁ = ((m, v'), j₂))
    (hpublish : (r.publish ev.outcome m).run.run j₂ = (.ok output, j₃)) :
    (conduct x keep r s v).run j = ((.ok ⟨ev, m, output⟩, v'),
      closed j (j₃.push (.countersFlushed j₃.counters))) :=
  Journal.run_within ((Logged.run_bind h).trans
    ((Logged.run_bind hkeep).trans (Logged.run_bind hpublish)))

end Conduct

/-- What comes out of the parts of a run. -/
theorem outcome_eq (E : Engine) (keep : List Evidence → Filed Manifest) (r : Rubric)
    (s : Snapshot) (v : Volume) (j : Journal) :
    E.outcome keep r s v j =
      match (E.evaluator.evaluate r s s.language).result (opened s j) with
      | .error error => (.error (.evaluation error), v)
      | .ok ev =>
        settle keep r v ((E.evaluator.evaluate r s s.language).journal (opened s j)) ev := by
  unfold outcome settle Attempt.result Attempt.journal
  rw [run_eq_conduct]
  rcases hx : (E.evaluator.evaluate r s s.language).run.run (opened s j) with ⟨error | ev, j₁⟩
  · rw [conduct_of_error hx]
  · -- The store goes on with the journal that the evaluation has left.
    rcases hkeep : ((keep ev.evidence).run v).run j₁ with ⟨⟨m, v'⟩, j₂⟩
    simp only [hkeep]
    rcases hpublish : (r.publish ev.outcome m).run.run j₂ with ⟨error | output, j₃⟩
    · rw [conduct_of_publish_error hx hkeep hpublish]
    · rw [conduct_of_ok hx hkeep hpublish]

/-- A failed evaluation ends the run before anything is kept. -/
theorem outcome_of_error {error : EvaluationError} {j₀ : Journal}
    (h : (E.evaluator.evaluate r s s.language).result j₀ = .error error) (v : Volume)
    (j : Journal) : E.outcome keep r s v j = (.error (.evaluation error), v) := by
  rw [outcome_eq, E.evaluator.steady_evaluate r s s.language (opened s j) j₀, h]

/-- An evaluation with an outcome makes a run succeed: its evidence is handed to the store, and
what is published follows the manifest that the store gives back. -/
theorem outcome_of_ok (keep : List Evidence → Filed Manifest) {ev : Evaluation} {j₀ : Journal}
    (h : (E.evaluator.evaluate r s s.language).result j₀ = .ok ev) (v : Volume) (j : Journal) :
    ∃ m v' j₁ j₂, ((keep ev.evidence).run v).run j₁ = ((m, v'), j₂) ∧
      E.outcome keep r s v j = (.ok ⟨ev, m, r.score ev.outcome m⟩, v') := by
  obtain ⟨ds, hsettles, rfl⟩ := Evaluator.evaluate_eq_ok_iff.1 h
  set j₁ := (E.evaluator.evaluate r s s.language).journal (opened s j)
  rcases hkeep : ((keep (Evaluator.assemble r ds).evidence).run v).run j₁ with ⟨⟨m, v'⟩, j₂⟩
  refine ⟨m, v', j₁, j₂, hkeep, ?_⟩
  -- The evaluation comes to the same whatever the journal, and its outcome fits the rubric.
  rw [outcome_eq, E.evaluator.steady_evaluate r s s.language (opened s j) j₀, h]
  simp only [settle]
  rw [hkeep]
  simp only
  rw [hsettles.fits.result_publish]

/-- Whatever an evaluation comes to can be published with every manifest. So a run fails if and
only if its evaluation does, and with the same error, whatever its store does. -/
theorem publish_succeeds_and_run_fails_iff (e : Evaluator) (r : Rubric) (s : Snapshot)
    (language : String) (j : Journal) :
    (∀ ev, (e.evaluate r s language).result j = .ok ev →
      ∀ m j', ∃ output, (r.publish ev.outcome m).result j' = .ok output) ∧
    ∀ (E : Engine) (keep : List Evidence → Filed Manifest) (v : Volume) (failure : Failure),
      (E.outcome keep r s v j).1 = .error failure ↔
        ∃ error, (E.evaluator.evaluate r s s.language).result j = .error error ∧
          failure = .evaluation error := by
  constructor
  · intro ev h m j'
    obtain ⟨ds, hsettles, rfl⟩ := Evaluator.evaluate_eq_ok_iff.1 h
    exact ⟨_, hsettles.fits.result_publish m j'⟩
  · intro E keep v failure
    cases hresult : (E.evaluator.evaluate r s s.language).result j with
    | error error =>
      rw [outcome_of_error hresult]
      simp [eq_comm]
    | ok ev =>
      -- A run that has got past its evaluation succeeds.
      obtain ⟨m, v', j₁, j₂, -, houtcome⟩ := outcome_of_ok keep hresult v j
      rw [houtcome]
      simp

/-- The outcome for a repository of which nothing is known is published with the manifest of
nothing. -/
theorem publish_succeeds_for_standard :
    ∃ ev output, ((Evaluator.ofRegistry .builtin).evaluate .standard (.bare "Rust") "rust").result
        .empty = .ok ev ∧
      (Rubric.standard.publish ev.outcome .empty).result .empty = .ok output := by
  obtain ⟨ds, hds⟩ := Evaluator.exists_settles (e := .ofRegistry .builtin) "rust"
    (Rubric.issues_eq_nil_iff.1 Rubric.issues_standard) (s := .bare "Rust") (by decide)
    fun _ _ => Registry.honest_of_builtin
  have hev : ((Evaluator.ofRegistry .builtin).evaluate .standard (.bare "Rust") "rust").result
      .empty = .ok (Evaluator.assemble .standard ds) :=
    Evaluator.evaluate_eq_ok_iff.2 ⟨ds, hds, rfl⟩
  obtain ⟨output, houtput⟩ :=
    (publish_succeeds_and_run_fails_iff _ _ _ _ .empty).1 _ hev .empty .empty
  exact ⟨_, output, hev, houtput⟩

end Scorecard.Engine
