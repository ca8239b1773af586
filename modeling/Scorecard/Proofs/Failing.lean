import Scorecard.Proofs.Answers
import Scorecard.Proofs.Engine

/-!
# Runs that fail

Whatever makes a run fail does so before anything is kept. So the volume is left as it has been, and
nothing is counted as kept, left out or dropped. The exit code tells what has been at fault: first
of all the rubric, then the snapshot, then a criterion or the lack of workers; no other code comes
out of a run.

* `Engine.runWith`: a run in which the criteria are judged by a crew.
* `Engine.FailsWith`: what a run that fails with an exit code leaves behind.
* `Engine.run_fails_safely`: when a run fails, and with which code.
-/

namespace Scorecard

/-- A criterion that fails is a fault of the rule. -/
theorem Evaluator.Fails.exitCode {e : Evaluator} {s : Snapshot} {language : String} {c : Criterion}
    {error : EvaluationError} (h : e.Fails s language c error) :
    (Failure.evaluation error).exitCode = 4 := by
  cases h with
  | unknownRule => rfl
  | ruleFailed => rfl
  | rejected _ _ hreject =>
    cases hreject with
    | inconsistentScore => rfl
    | implicitPartial => rfl
    | missingEvidence => rfl

namespace Engine

variable {E : Engine} {keep : List Evidence → Filed Manifest} {r : Rubric} {s : Snapshot}
  {v : Volume} {j : Journal} {x : Attempt EvaluationError Evaluation} {missing? : Option String}
  {events : List Event} {after : (Except Failure Report × Volume) × Journal}

/-- Grades a snapshot against a rubric; the criteria are judged by a crew. -/
def runWith (E : Engine) (crew : Crew) (keep : List Evidence → Filed Manifest) (r : Rubric)
    (s : Snapshot) (v : Volume) : Logged (Except Failure Report × Volume) :=
  conduct (E.evaluator.evaluateWith crew r s s.language) keep r s v

/-- What a run leaves behind that fails with an exit code: the volume as it has been, and the
counts of what has been kept, left out and dropped. -/
structure FailsWith (code : Nat) (v : Volume) (j : Journal)
    (after : (Except Failure Report × Volume) × Journal) : Prop where
  failure : ∃ failure, after.1.1 = .error failure ∧ failure.exitCode = code
  volume : after.1.2 = v
  persisted : after.2.counters.evidencePersisted = j.counters.evidencePersisted
  omitted : after.2.counters.evidenceOmitted = j.counters.evidenceOmitted
  dropped : after.2.counters.referencesDropped = j.counters.referencesDropped

/-- When a run fails and when it does not; `missing?` tells why there are no workers, if there are
none. -/
structure FailsSafely (E : Engine) (missing? : Option String) (r : Rubric) (s : Snapshot)
    (v : Volume) (j : Journal) (after : (Except Failure Report × Volume) × Journal) : Prop where
  /-- The rubric comes first, whatever the snapshot is like. -/
  rubric : r.issues E.registry ≠ [] → FailsWith 2 v j after
  snapshot : r.issues E.registry = [] → s.flaw? ≠ none → FailsWith 3 v j after
  criterion : r.issues E.registry = [] → s.flaw? = none →
    (∃ c ∈ r.criteria, ∃ error, E.evaluator.Fails s (Text.normal s.language) c error) →
    FailsWith 4 v j after
  workers : r.issues E.registry = [] → s.flaw? = none → missing? ≠ none → FailsWith 4 v j after
  /-- Nothing else makes a run fail. -/
  success : r.issues E.registry = [] → s.flaw? = none → missing? = none →
    (∀ c ∈ r.criteria, ∀ error, ¬ E.evaluator.Fails s (Text.normal s.language) c error) →
    ∃ report, after.1.1 = .ok report
  /-- Whatever the failure is, it is the fault of the rubric, the snapshot or a rule. -/
  code : ∀ failure, after.1.1 = .error failure →
    failure.exitCode ∈ [2, 3, 4] ∧ FailsWith failure.exitCode v j after

/-! ### Runs that fail -/

/-- An evaluation that fails ends the run before anything is kept. -/
private theorem failsWith_conduct {error : EvaluationError} (hx : x.ComesTo (.error error) events)
    (hevents : Event.WithoutEvidence events) (keep : List Evidence → Filed Manifest) (r : Rubric)
    (s : Snapshot) (v : Volume) (j : Journal) :
    FailsWith (Failure.evaluation error).exitCode v j ((conduct x keep r s v).run j) := by
  rw [conduct_of_error (hx (opened s j))]
  refine ⟨⟨_, rfl, rfl⟩, rfl, ?_, ?_, ?_⟩
  -- The counts grow with the events, none of which is about evidence.
  · change j.counters.evidencePersisted + .ofNat (Event.occurrences _ events) = _
    rw [hevents.persisted]
    exact UInt64.add_zero _
  · change j.counters.evidenceOmitted + .ofNat (Event.occurrences _ events) = _
    rw [hevents.omitted]
    exact UInt64.add_zero _
  · change j.counters.referencesDropped + .ofNat (events.flatMap Event.dropped).length = _
    rw [hevents.dropped]
    exact UInt64.add_zero _

/-- A failure that comes with an exit code has it. -/
private theorem FailsWith.exitCode {code : Nat} (h : FailsWith code v j after)
    {failure : Failure} (hfailure : after.1.1 = .error failure) : failure.exitCode = code := by
  obtain ⟨failure', hfailure', hcode⟩ := h.failure
  rw [hfailure'] at hfailure
  exact Except.error.inj hfailure ▸ hcode

/-- A run that fails with one of the three exit codes fails with no other one. -/
private theorem FailsWith.code {code : Nat} (h : FailsWith code v j after)
    (hcode : code ∈ [2, 3, 4]) (failure : Failure) (hfailure : after.1.1 = .error failure) :
    failure.exitCode ∈ [2, 3, 4] ∧ FailsWith failure.exitCode v j after := by
  -- There is one failure, so that its code is the one known.
  rw [h.exitCode hfailure]
  exact ⟨hcode, h⟩

/-! ### One course after the other -/

/-- The rubric is at fault. -/
private theorem FailsSafely.of_issues (hissues : r.issues E.registry ≠ [])
    (h : FailsWith 2 v j after) : E.FailsSafely missing? r s v j after where
  rubric _ := h
  snapshot hnone := absurd hnone hissues
  criterion hnone := absurd hnone hissues
  workers hnone := absurd hnone hissues
  success hnone := absurd hnone hissues
  code := h.code (by decide)

/-- The snapshot is at fault. -/
private theorem FailsSafely.of_flaw (hrubric : r.issues E.registry = []) (hflaw : s.flaw? ≠ none)
    (h : FailsWith 3 v j after) : E.FailsSafely missing? r s v j after where
  rubric hissues := absurd hrubric hissues
  snapshot _ _ := h
  criterion _ hnone := absurd hnone hflaw
  workers _ hnone := absurd hnone hflaw
  success _ hnone := absurd hnone hflaw
  code := h.code (by decide)

/-- There are no workers: nobody can tell whether a criterion would have failed, but the exit code
is the same. -/
private theorem FailsSafely.of_missing (hadmits : E.evaluator.Admits r s)
    (hmissing : missing? ≠ none) (h : FailsWith 4 v j after) :
    E.FailsSafely missing? r s v j after where
  rubric hissues := absurd hadmits.rubric hissues
  snapshot _ hflaw := absurd hadmits.snapshot hflaw
  criterion _ _ _ := h
  workers _ _ _ := h
  success _ _ hnone := absurd hnone hmissing
  code := h.code (by decide)

/-- A criterion is at fault. -/
private theorem FailsSafely.of_fails (hadmits : E.evaluator.Admits r s) (hmanned : missing? = none)
    {c : Criterion} (hc : c ∈ r.criteria) {error : EvaluationError}
    (hfails : E.evaluator.Fails s (Text.normal s.language) c error) (h : FailsWith 4 v j after) :
    E.FailsSafely missing? r s v j after where
  rubric hissues := absurd hadmits.rubric hissues
  snapshot _ hflaw := absurd hadmits.snapshot hflaw
  criterion _ _ _ := h
  workers _ _ hmissing := absurd hmanned hmissing
  success _ _ _ hnone := absurd hfails (hnone c hc error)
  code := h.code (by decide)

/-- Nothing is at fault. -/
private theorem FailsSafely.of_report (hadmits : E.evaluator.Admits r s) (hmanned : missing? = none)
    (hnone : ∀ c ∈ r.criteria, ∀ error,
      ¬ E.evaluator.Fails s (Text.normal s.language) c error)
    {report : Report} (h : after.1.1 = .ok report) : E.FailsSafely missing? r s v j after where
  rubric hissues := absurd hadmits.rubric hissues
  snapshot _ hflaw := absurd hadmits.snapshot hflaw
  criterion _ _ := fun ⟨c, hc, error, hfails⟩ => absurd hfails (hnone c hc error)
  workers _ _ hmissing := absurd hmanned hmissing
  success _ _ _ _ := ⟨report, h⟩
  code _ hfailure := nomatch h.symm.trans hfailure

/-- A run does not fail after its evaluation. -/
private theorem exists_report_conduct {ev : Evaluation} (hx : x.ComesTo (.ok ev) events)
    (hfits : ev.outcome.Fits r) (keep : List Evidence → Filed Manifest) (s : Snapshot) (v : Volume)
    (j : Journal) : ∃ report, ((conduct x keep r s v).run j).1.1 = .ok report := by
  rcases hkeep : ((keep ev.evidence).run v).run ((opened s j).extend events)
    with ⟨⟨m, v'⟩, j₂⟩
  rcases hpublish : (r.publish ev.outcome m).run.run j₂ with ⟨result, j₃⟩
  -- Whatever manifest the store gives back, an outcome that fits is published.
  have hresult : result = .ok (r.score ev.outcome m) := by
    rw [← hfits.result_publish m j₂]
    unfold Attempt.result
    rw [hpublish]
  subst hresult
  rw [conduct_of_ok (hx (opened s j)) hkeep hpublish]
  exact ⟨_, rfl⟩

/-- Whichever course an evaluation takes, the run fails safely. -/
private theorem failsSafely_conduct {result : Except EvaluationError Evaluation}
    (hcourse : E.evaluator.Course missing? r s s.language result events)
    (hx : x.ComesTo result events) :
    E.FailsSafely missing? r s v j ((conduct x keep r s v).run j) := by
  -- No course that fails has reported anything on evidence.
  have hfails {error : EvaluationError} (hx : x.ComesTo (.error error) events) :
      FailsWith (Failure.evaluation error).exitCode v j ((conduct x keep r s v).run j) :=
    failsWith_conduct hx hcourse.withoutEvidence keep r s v j
  cases hcourse with
  | refusedRubric h hne => exact .of_issues (h ▸ hne) (hfails hx)
  | refusedSnapshot hrubric h =>
    exact .of_flaw hrubric (h ▸ Option.some_ne_none _) (hfails hx)
  | unmanned hadmits h => exact .of_missing hadmits (h ▸ Option.some_ne_none _) (hfails hx)
  | @stopped front back c _ _ hadmits hmanned hcriteria _ hcriterion =>
    have hmem : c ∈ r.criteria := by
      rw [hcriteria]
      exact List.mem_append_right _ List.mem_cons_self
    exact .of_fails hadmits hmanned hmem hcriterion (hcriterion.exitCode ▸ hfails hx)
  | settled hmanned hsettles =>
    obtain ⟨report, hreport⟩ := exists_report_conduct hx hsettles.fits keep s v j
    have hrubric := Rubric.issues_eq_nil_iff.2 hsettles.valid
    -- All criteria have been decided, so that none of them fails.
    refine .of_report ⟨hrubric, hsettles.flawless⟩ hmanned (fun c hc error => ?_) hreport
    exact Evaluator.DecidesAll.not_fails hsettles.decided hc

/-- A run fails if the rubric has issues, else if the snapshot has a flaw, else if a criterion
fails; and there have to be workers. Whatever the way of keeping evidence, a run that fails has not
used it. -/
theorem run_fails_safely (E : Engine) (keep : List Evidence → Filed Manifest) (r : Rubric)
    (s : Snapshot) (v : Volume) (j : Journal) :
    E.FailsSafely none r s v j ((E.run keep r s v).run j) ∧
      ∀ crew : Crew, E.evaluator.Manned crew r s s.language →
        E.FailsSafely crew.missing? r s v j ((E.runWith crew keep r s v).run j) := by
  constructor
  · obtain ⟨result, events, hcourse, hx⟩ := E.evaluator.exists_course r s s.language
    exact failsSafely_conduct hcourse hx
  · intro crew hmanned
    obtain ⟨result, events, hcourse, hx⟩ := Evaluator.exists_course_with hmanned
    exact failsSafely_conduct hcourse hx

/-- A rubric without criteria is at fault even where the snapshot names no language, else such a
snapshot is, and else the criterion without evidence, whoever gets done with it first. -/
theorem run_fails_safely_fickle :
    let E : Engine := ⟨.standard, .register .empty .fickle⟩
    let keep := E.store.persist ⟨.nil, ⟨"1970-01-01T00:00:00Z"⟩⟩
    let order := [2, 1, 2, 0, 1, 0]
    E.evaluator.Manned (.turns order) .fickle (.bare "Rust") "Rust" ∧
      FailsWith 2 .empty .empty ((E.run keep ⟨"1", .empty, [], []⟩ (.bare " ") .empty).run .empty) ∧
      FailsWith 3 .empty .empty ((E.run keep .fickle (.bare " ") .empty).run .empty) ∧
      FailsWith 4 .empty .empty
        ((E.runWith (.turns order) keep .fickle (.bare "Rust") .empty).run .empty) := by
  intro E keep order
  have hissues : Rubric.fickle.issues E.registry = [] := by decide +kernel
  have hmanned : E.evaluator.Manned (.turns order) .fickle (.bare "Rust") "Rust" := by
    unfold Evaluator.Manned Crew.Finishes
    decide +kernel
  refine ⟨hmanned, (run_fails_safely E keep _ _ .empty .empty).1.rubric (by decide +kernel),
    (run_fails_safely E keep .fickle _ .empty .empty).1.snapshot hissues (by decide), ?_⟩
  have hcrew := (run_fails_safely E keep .fickle (.bare "Rust") .empty .empty).2 _ hmanned
  exact hcrew.criterion hissues (by decide)
    ⟨_, .tail _ (.head _), _, Evaluator.fails_fickle (e := E.evaluator) rfl⟩

end Engine

end Scorecard
