import Scorecard.Proofs.Crew
import Scorecard.Proofs.Evaluation

/-!
# The course of an evaluation

An evaluation that is refused reports nothing. Otherwise it reports that it has started, then each
criterion up to the first one that fails, in the order of the rubric; if none fails it reports its
end. All that is said of evaluations that fail, and of what evaluations report, follows from these
few courses.

* `Evaluator.Fails`, `Evaluator.decide_eq_error_iff`: why a criterion fails.
* `Evaluator.Course`: the courses that an evaluation can take.
* `Evaluator.exists_course`: every evaluation takes one of them, by a crew or without.
* `Evaluator.evaluate_eq_ok_iff`: when there is an outcome.
-/

namespace Scorecard

/-- The event that reports what is decided for a criterion. -/
def Decided.event (d : Decided) : Event :=
  .criterionEvaluated d.outcome.criterionId d.outcome.dimension d.outcome.status d.outcome.score
    d.evidence.length

namespace Evaluator

variable {e : Evaluator} {r : Rubric} {s : Snapshot} {language : String} {c : Criterion}
  {error : EvaluationError}

/-! ### Criteria that fail -/

/-- Why a verdict is not accepted: the first of the checks that it does not pass. -/
inductive Rejects (c : Criterion) (rule : Rule) (params : Params) (v : Verdict) :
    EvaluationError → Prop
  | inconsistentScore (h : v.status.isConsistent v.score c.maxPoints = false) :
    Rejects c rule params v (.inconsistentScore c.id v.status v.score c.maxPoints)
  | implicitPartial (hscore : v.status.isConsistent v.score c.maxPoints = true)
    (hpartly : v.status = .partly) (h : rule.allowsPartial params = false) :
    Rejects c rule params v (.implicitPartial c.id c.rule)
  | missingEvidence (hscore : v.status.isConsistent v.score c.maxPoints = true)
    (hrelaxed : v.status = .partly → rule.allowsPartial params = true) (h : v.evidence = []) :
    Rejects c rule params v (.missingEvidence c.id)

theorem checkVerdict_eq_error_iff {rule : Rule} {params : Params} {v : Verdict} :
    checkVerdict c rule params v = .error error ↔ Rejects c rule params v error := by
  unfold checkVerdict
  simp only [Except.ite_error_eq_error_iff, Bool.not_eq_true', Bool.not_eq_false, Bool.and_eq_true,
    decide_eq_true_eq, not_and, List.isEmpty_iff, reduceCtorEq, and_false, or_false]
  constructor
  · rintro (⟨h, rfl⟩ | ⟨hscore, ⟨⟨hpartly, h⟩, rfl⟩ | ⟨hrelaxed, h, rfl⟩⟩)
    · exact .inconsistentScore h
    · exact .implicitPartial hscore hpartly h
    · exact .missingEvidence hscore hrelaxed h
  · rintro (h | ⟨hscore, hpartly, h⟩ | ⟨hscore, hrelaxed, h⟩)
    · exact .inl ⟨h, rfl⟩
    · exact .inr ⟨hscore, .inl ⟨⟨hpartly, h⟩, rfl⟩⟩
    · exact .inr ⟨hscore, .inr ⟨hrelaxed, h, rfl⟩⟩

/-- Why a criterion fails: its rule is not registered, or fails itself, or comes to a verdict that
is not accepted. -/
inductive Fails (e : Evaluator) (s : Snapshot) (language : String) (c : Criterion) :
    EvaluationError → Prop
  | unknownRule (h : e.registry.get? c.rule = none) :
    Fails e s language c (.unknownRule c.id c.rule)
  | ruleFailed {rule : Rule} {error : RuleError} (hrule : e.registry.get? c.rule = some rule)
    (h : rule.judge ⟨c.id, c.dimension, c.maxPoints, language⟩ s (c.effectiveParams language)
      = .error error) :
    Fails e s language c (.ruleFailed c.id error)
  | rejected {rule : Rule} {v : Verdict} {error : EvaluationError}
    (hrule : e.registry.get? c.rule = some rule)
    (hjudge : rule.judge ⟨c.id, c.dimension, c.maxPoints, language⟩ s (c.effectiveParams language)
      = .ok v)
    (h : Rejects c rule (c.effectiveParams language) v error) :
    Fails e s language c error

/-- There is an error for a criterion if and only if it fails. -/
theorem decide_eq_error_iff :
    e.decide s language c = .error error ↔ e.Fails s language c error := by
  unfold Evaluator.decide
  constructor
  · intro h
    cases hrule : e.registry.get? c.rule with
    | none =>
      rw [hrule] at h
      cases h
      exact .unknownRule hrule
    | some rule =>
      rw [hrule] at h
      simp only at h
      split at h
      · next hjudge =>
        cases h
        exact .ruleFailed hrule hjudge
      · next v hjudge =>
        split at h
        · next hcheck =>
          cases h
          exact .rejected hrule hjudge (checkVerdict_eq_error_iff.1 hcheck)
        · exact nomatch h
  · rintro (hrule | ⟨hrule, hjudge⟩ | ⟨hrule, hjudge, hreject⟩)
    · rw [hrule]
    · rw [hrule]
      simp only
      rw [hjudge]
    · rw [hrule]
      simp only
      rw [hjudge]
      simp only
      rw [checkVerdict_eq_error_iff.2 hreject]

/-- Criteria that are decided do not fail. -/
theorem DecidesAll.not_fails {cs : List Criterion} {ds : List Decided}
    (h : e.DecidesAll s language cs ds) (hc : c ∈ cs) : ¬ e.Fails s language c error := by
  intro hfails
  have hmem : e.decide s language c ∈ cs.map (e.decide s language) := List.mem_map_of_mem hc
  rw [map_decide_eq_iff.2 h, decide_eq_error_iff.2 hfails] at hmem
  obtain ⟨d, -, hd⟩ := List.mem_map.1 hmem
  exact nomatch hd

/-- Criteria none of which fails are decided. -/
theorem exists_decidesAll_of_not_fails {cs : List Criterion}
    (h : ∀ c ∈ cs, ∀ error, ¬ e.Fails s language c error) :
    ∃ ds, e.DecidesAll s language cs ds := by
  refine exists_decidesAll fun c hc => ?_
  cases hdecide : e.decide s language c with
  | error error => exact absurd (decide_eq_error_iff.1 hdecide) (h c hc error)
  | ok d =>
    obtain ⟨v, hv, -⟩ := decide_eq_ok_iff.1 hdecide
    exact ⟨v, hv⟩

/-- Either all criteria are decided, or there is a first one that fails. -/
theorem exists_decidesAll_or_fails (e : Evaluator) (s : Snapshot) (language : String)
    (cs : List Criterion) :
    (∃ ds, e.DecidesAll s language cs ds) ∨
      ∃ front c back ds error, cs = front ++ c :: back ∧ e.DecidesAll s language front ds ∧
        e.Fails s language c error := by
  induction cs with
  | nil => exact .inl ⟨[], .nil⟩
  | cons c cs ih =>
    cases hdecide : e.decide s language c with
    | error error =>
      -- Nothing stands in front of this criterion, so that it is the first one.
      exact .inr ⟨[], c, cs, [], error, rfl, .nil, decide_eq_error_iff.1 hdecide⟩
    | ok d =>
      have hd := decide_eq_ok_iff.1 hdecide
      rcases ih with ⟨ds, hds⟩ | ⟨front, c', back, ds, error, rfl, hds, hfails⟩
      · exact .inl ⟨d :: ds, .cons hd hds⟩
      · exact .inr ⟨c :: front, c', back, d :: ds, error, rfl, .cons hd hds, hfails⟩

/-! ### Reports -/

/-- The event that reports the start of an evaluation. -/
def started (e : Evaluator) (r : Rubric) (language : String) : Event :=
  .evaluationStarted (Text.normal language) r.criteria.length e.workers

/-- The event that reports the end of an evaluation. -/
def finished (ev : Evaluation) : Event :=
  .evaluationFinished ev.outcome.totalScore ev.outcome.maxScore ev.evidence.length

/-- The beginning is reported. -/
private theorem comesTo_started (e : Evaluator) (r : Rubric) (language : String) :
    (Journal.emit (e.started r language)).ComesTo () [e.started r language] :=
  Logged.comesTo_emit rfl rfl

/-- The end is reported. -/
private theorem comesTo_finished (ev : Evaluation) :
    (Journal.emit (finished ev)).ComesTo () [finished ev] :=
  Logged.comesTo_emit rfl rfl

theorem comesTo_report (d : Decided) : (report d).ComesTo () [d.event] :=
  Logged.comesTo_emit_count fun c => by
    simp [Counters.grown, Event.occurrences, Event.name?, Event.fields, Event.dropped]

/-- Decisions that come before others are reported before them. -/
private theorem comesTo_collect_append {results : List (Except EvaluationError Decided)}
    {result : Except EvaluationError (List Decided)} {events : List Event}
    (h : (collect results).ComesTo result events) (ds : List Decided) :
    (collect (ds.map .ok ++ results)).ComesTo (result.map (ds ++ ·))
      (ds.map Decided.event ++ events) := by
  induction ds with
  | nil =>
    cases result with
    | error error => exact h
    | ok ds => exact h
  | cons d ds ih =>
    -- This one is reported before all others, and goes in front of them in the end.
    have hrest := ih.map (d :: ·)
    have hmap : (result.map (ds ++ ·)).map (d :: ·) = result.map (d :: ds ++ ·) := by
      cases result with
      | error error => rfl
      | ok ds' => rfl
    rw [hmap] at hrest
    exact Attempt.ComesTo.report_bind (comesTo_report d) hrest

/-- What comes of collecting results none of which is an error. -/
theorem comesTo_collect (ds : List Decided) :
    (collect (ds.map .ok)).ComesTo (.ok ds) (ds.map Decided.event) := by
  have hnil : (collect []).ComesTo (.ok []) [] := Attempt.comesTo_pure []
  simpa [Except.map] using comesTo_collect_append hnil ds

/-- What comes of collecting results up to the first error. -/
theorem comesTo_collect_error (ds : List Decided) (error : EvaluationError)
    (rest : List (Except EvaluationError Decided)) :
    (collect (ds.map .ok ++ .error error :: rest)).ComesTo (.error error)
      (ds.map Decided.event) := by
  have hfirst : (collect (.error error :: rest)).ComesTo (.error error) [] :=
    Attempt.comesTo_throw error
  simpa [Except.map] using comesTo_collect_append hfirst ds

/-! ### Courses -/

/-- There is nothing to be said against the rubric and the snapshot. -/
structure Admits (e : Evaluator) (r : Rubric) (s : Snapshot) : Prop where
  rubric : r.issues e.registry = []
  snapshot : s.flaw? = none

/-- The courses that an evaluation can take, with what comes out of it and what it reports;
`missing?` tells why there are no workers, if there are none. -/
inductive Course (e : Evaluator) (missing? : Option String) (r : Rubric) (s : Snapshot)
    (language : String) : Except EvaluationError Evaluation → List Event → Prop
  | refusedRubric {issues : List RubricIssue} (h : r.issues e.registry = issues)
    (hne : issues ≠ []) :
    Course e missing? r s language (.error (.invalidRubric (.invalid issues))) []
  | refusedSnapshot {flaw : SnapshotFlaw} (hrubric : r.issues e.registry = [])
    (h : s.flaw? = some flaw) :
    Course e missing? r s language (.error (.invalidSnapshot (.flawed flaw))) []
  | unmanned {reason : String} (hadmits : e.Admits r s) (h : missing? = some reason) :
    Course e missing? r s language (.error (.noWorkers reason)) [e.started r language]
  | stopped {front back : List Criterion} {c : Criterion} {ds : List Decided}
    {error : EvaluationError} (hadmits : e.Admits r s) (hmanned : missing? = none)
    (hcriteria : r.criteria = front ++ c :: back)
    (hfront : e.DecidesAll s (Text.normal language) front ds)
    (hfails : e.Fails s (Text.normal language) c error) :
    Course e missing? r s language (.error error) (e.started r language :: ds.map Decided.event)
  | settled {ds : List Decided} (hmanned : missing? = none)
    (hsettles : e.Settles r s language ds) :
    Course e missing? r s language (.ok (assemble r ds))
      (e.started r language :: ds.map Decided.event ++ [finished (assemble r ds)])

/-- No event of an evaluation is about an item or about references. -/
theorem Course.withoutEvidence {missing? : Option String}
    {result : Except EvaluationError Evaluation} {events : List Event}
    (h : e.Course missing? r s language result events) : Event.WithoutEvidence events := by
  apply Event.withoutEvidence
  intro event hevent
  have hdecided {ds : List Decided} (h : event ∈ ds.map Decided.event) :
      event.concernsEvidence = false := by
    obtain ⟨d, -, rfl⟩ := List.mem_map.1 h
    rfl
  cases h with
  | refusedRubric | refusedSnapshot => exact absurd hevent List.not_mem_nil
  | unmanned =>
    rw [List.mem_singleton.1 hevent]
    rfl
  | stopped =>
    rcases List.mem_cons.1 hevent with rfl | hevent
    · rfl
    · exact hdecided hevent
  | settled =>
    rcases List.mem_append.1 hevent with hevent | hevent
    · rcases List.mem_cons.1 hevent with rfl | hevent
      · rfl
      · exact hdecided hevent
    · rw [List.mem_singleton.1 hevent]
      rfl

/-- Input that is admitted passes the check. -/
private theorem checkInput_of_admits (h : e.Admits r s) : e.checkInput r s = .ok () := by
  unfold checkInput
  rw [h.rubric, h.snapshot]

/-- Input that is not admitted ends the evaluation before anything is reported. -/
private theorem exists_course_of_not_admits (h : ¬ e.Admits r s) (missing? : Option String)
    (language : String) (rest : Unit → Attempt EvaluationError Evaluation) :
    ∃ result events, e.Course missing? r s language result events ∧
      (Attempt.ofExcept (e.checkInput r s) >>= rest).ComesTo result events := by
  -- Nothing has been reported yet, and nothing of the rest is done.
  have hinput {error : EvaluationError} (h : e.checkInput r s = .error error) :
      (Attempt.ofExcept (e.checkInput r s) >>= rest).ComesTo (.error error) [] := by
    rw [h]
    exact Attempt.comesTo_ofExcept_error_bind error rest
  cases hissues : r.issues e.registry with
  | cons issue issues =>
    refine ⟨_, _, .refusedRubric hissues (List.cons_ne_nil _ _), hinput ?_⟩
    unfold checkInput
    rw [hissues]
  | nil =>
    cases hflaw : s.flaw? with
    | none => exact absurd ⟨hissues, hflaw⟩ h
    | some flaw =>
      refine ⟨_, _, .refusedSnapshot hissues hflaw, hinput ?_⟩
      unfold checkInput
      rw [hissues, hflaw]

/-- An evaluation stops at the first criterion that fails, with its error. -/
theorem comesTo_evaluate_of_fails (hadmits : e.Admits r s) {front back : List Criterion}
    {ds : List Decided} (hcriteria : r.criteria = front ++ c :: back)
    (hfront : e.DecidesAll s (Text.normal language) front ds)
    (hfails : e.Fails s (Text.normal language) c error) :
    (e.evaluate r s language).ComesTo (.error error)
      (e.started r language :: ds.map Decided.event) := by
  -- What follows the error is not looked at, whatever has come of it.
  have hresults : r.criteria.map (e.decide s (Text.normal language))
      = ds.map .ok ++ .error error :: back.map (e.decide s (Text.normal language)) := by
    rw [hcriteria, List.map_append, List.map_cons, map_decide_eq_iff.2 hfront,
      decide_eq_error_iff.2 hfails]
  unfold evaluate
  rw [checkInput_of_admits hadmits]
  simp only
  rw [hresults]
  refine .ofExcept_bind (.report_bind (comesTo_started e r language) ?_)
  exact (comesTo_collect_error ds error _).bind_error _

/-- An evaluation that settles all criteria comes to its end. -/
theorem comesTo_evaluate_of_settles {ds : List Decided} (h : e.Settles r s language ds) :
    (e.evaluate r s language).ComesTo (.ok (assemble r ds))
      (e.started r language :: ds.map Decided.event ++ [finished (assemble r ds)]) := by
  have hadmits : e.Admits r s := ⟨Rubric.issues_eq_nil_iff.2 h.valid, h.flawless⟩
  -- The last check is passed by whatever gets so far.
  have hreferences : (assemble r ds).outcome.checkReferences (assemble r ds).evidence = .ok () :=
    checkReferences_eq_ok h.decided.references (h.decided.nodup_ids h.valid.distinct)
  unfold evaluate
  rw [checkInput_of_admits hadmits]
  simp only
  rw [map_decide_eq_iff.2 h.decided]
  refine .ofExcept_bind (.report_bind (comesTo_started e r language) ?_)
  refine (comesTo_collect ds).bind ?_
  rw [hreferences]
  exact .ofExcept_bind (.report_bind (comesTo_finished _) (Attempt.comesTo_pure _))

/-- An evaluation takes one of the courses, and there are workers. -/
theorem exists_course (e : Evaluator) (r : Rubric) (s : Snapshot) (language : String) :
    ∃ result events, e.Course none r s language result events ∧
      (e.evaluate r s language).ComesTo result events := by
  by_cases hadmits : e.Admits r s
  · rcases e.exists_decidesAll_or_fails s (Text.normal language) r.criteria
      with ⟨ds, hds⟩ | ⟨front, c, back, ds, error, hcriteria, hfront, hfails⟩
    · have hsettles : e.Settles r s language ds :=
        ⟨Rubric.issues_eq_nil_iff.1 hadmits.rubric, hadmits.snapshot, hds⟩
      exact ⟨_, _, .settled rfl hsettles, comesTo_evaluate_of_settles hsettles⟩
    · exact ⟨_, _, .stopped hadmits rfl hcriteria hfront hfails,
        comesTo_evaluate_of_fails hadmits hcriteria hfront hfails⟩
  · exact exists_course_of_not_admits hadmits none language _

theorem exists_course_with {crew : Crew} (h : e.Manned crew r s language) :
    ∃ result events, e.Course crew.missing? r s language result events ∧
      (e.evaluateWith crew r s language).ComesTo result events := by
  cases crew with
  | turns order =>
    -- Whatever the turns are, it is as if there were none.
    rw [evaluateWith_eq_evaluate h]
    exact e.exists_course r s language
  | missing reason =>
    by_cases hadmits : e.Admits r s
    · refine ⟨_, _, .unmanned hadmits rfl, ?_⟩
      unfold evaluateWith
      rw [checkInput_of_admits hadmits]
      -- Once the start is reported, it turns out that there is nobody to do the work.
      exact .ofExcept_bind (.report_bind (comesTo_started e r language)
        (Attempt.comesTo_ofExcept_error_bind _ _))
    · exact exists_course_of_not_admits hadmits _ language _

/-! ### Results -/

/-- There is an outcome if everything is valid and all criteria are decided. -/
theorem evaluate_eq_ok_iff {j : Journal} {ev : Evaluation} :
    (e.evaluate r s language).result j = .ok ev ↔
      ∃ ds, e.Settles r s language ds ∧ ev = assemble r ds := by
  constructor
  · intro h
    obtain ⟨result, events, hcourse, hx⟩ := e.exists_course r s language
    rw [hx.result j] at h
    subst h
    -- There is no other course with an outcome.
    cases hcourse with
    | settled _ hsettles => exact ⟨_, hsettles, rfl⟩
  · rintro ⟨ds, hsettles, rfl⟩
    exact (comesTo_evaluate_of_settles hsettles).result j

/-- An evaluation comes to the same result whatever has been written to the journal before. -/
theorem steady_evaluate (e : Evaluator) (r : Rubric) (s : Snapshot) (language : String) :
    (e.evaluate r s language).Steady := by
  obtain ⟨result, events, -, hx⟩ := e.exists_course r s language
  exact hx.steady

end Evaluator

end Scorecard
