import Scorecard.Proofs.Publish

/-!
# Outcomes that are refused

An outcome is checked against the rubric before anything is published: first what is said of it as a
whole, then each criterion at its position, and the sums at last. The first check that it does not
pass gives the error, and nothing is reported or counted then. No comparison of points is passed by
what is not a finite number, so that all numbers of an outcome that is published are finite.

* `OutcomeCheck`, `Rubric.checks`: the checks in their order.
* `Outcome.Violates`: the outcome does not pass a check, whatever comes of the others.
* `Rubric.outcomeError?_eq_findSome?`: the first check that is not passed counts.
* `Rubric.publishes_or_refuses`: an outcome is published if it fits, and otherwise refused with the
  first check that it does not pass.
-/

namespace Scorecard

/-! ### Checks -/

/-- What the outcome for a criterion is checked for, in this order. -/
inductive CriterionCheck
  | id
  | dimension
  | maxPoints
  | score

/-- The checks on one criterion in their order. -/
def CriterionCheck.all : List CriterionCheck := [id, dimension, maxPoints, score]

/-- What an outcome is checked for. -/
inductive OutcomeCheck
  | fullPoints
  | count
  | criterion (position : Nat) (check : CriterionCheck)
  | total
  | maxScore

/-- All checks in their order. -/
def Rubric.checks (r : Rubric) : List OutcomeCheck :=
  .fullPoints :: .count ::
    ((List.range r.criteria.length).flatMap (fun i => CriterionCheck.all.map (.criterion i))
      ++ [.total, .maxScore])

/-- The outcome for a criterion does not pass a check, and the error says so. -/
inductive CriterionOutcome.Violates (position : Nat) (expected : Criterion)
    (actual : CriterionOutcome) : CriterionCheck → PublishError → Prop
  | id (h : expected.id ≠ actual.criterionId) :
    Violates position expected actual .id (.orderMismatch position expected.id actual.criterionId)
  | dimension (h : expected.dimension ≠ actual.dimension) :
    Violates position expected actual .dimension
      (.dimensionMismatch actual.criterionId expected.dimension actual.dimension)
  | maxPoints (h : Points.same expected.maxPoints actual.maxPoints = false) :
    Violates position expected actual .maxPoints
      (.maxPointsMismatch actual.criterionId expected.maxPoints actual.maxPoints)
  /-- The score is not the one that the status fixes for the points of the outcome itself. -/
  | score (h : Points.same actual.score (actual.status.points actual.maxPoints) = false) :
    Violates position expected actual .score
      (.inconsistentScore actual.criterionId actual.status actual.score actual.maxPoints)

/-- The outcome does not pass a check of the rubric, and the error says so. -/
inductive Outcome.Violates (o : Outcome) (r : Rubric) : OutcomeCheck → PublishError → Prop
  | fullPoints (h : Points.same r.totalPoints Rubric.fullPoints = false) :
    Violates o r .fullPoints (.rubricTotal r.totalPoints Rubric.fullPoints)
  | count (h : o.criteria.length ≠ r.criteria.length) :
    Violates o r .count (.countMismatch r.criteria.length o.criteria.length)
  | criterion {i : Nat} {c : Criterion} {a : CriterionOutcome} {x : CriterionCheck}
    {error : PublishError} (hc : r.criteria[i]? = some c) (ha : o.criteria[i]? = some a)
    (h : a.Violates i c x error) : Violates o r (.criterion i x) error
  | total (h : Points.same (Points.total (o.criteria.map (·.score))) o.totalScore = false) :
    Violates o r .total
      (.totalMismatch o.totalScore (Points.total (o.criteria.map (·.score))))
  | maxScore (h : Points.same r.totalPoints o.maxScore = false) :
    Violates o r .maxScore (.maxScoreMismatch o.maxScore r.totalPoints)

/-! ### One check -/

/-- What one check says of the outcome for a criterion. -/
def CriterionOutcome.violation? (position : Nat) (expected : Criterion)
    (actual : CriterionOutcome) : CriterionCheck → Option PublishError
  | .id =>
    if expected.id ≠ actual.criterionId then
      some (.orderMismatch position expected.id actual.criterionId)
    else none
  | .dimension =>
    if expected.dimension ≠ actual.dimension then
      some (.dimensionMismatch actual.criterionId expected.dimension actual.dimension)
    else none
  | .maxPoints =>
    if !Points.same expected.maxPoints actual.maxPoints then
      some (.maxPointsMismatch actual.criterionId expected.maxPoints actual.maxPoints)
    else none
  | .score =>
    if !actual.isConsistent then
      some (.inconsistentScore actual.criterionId actual.status actual.score actual.maxPoints)
    else none

/-- What one check says of the outcome. -/
def Outcome.violation? (o : Outcome) (r : Rubric) : OutcomeCheck → Option PublishError
  | .fullPoints =>
    if !Points.same r.totalPoints Rubric.fullPoints then
      some (.rubricTotal r.totalPoints Rubric.fullPoints)
    else none
  | .count =>
    if o.criteria.length ≠ r.criteria.length then
      some (.countMismatch r.criteria.length o.criteria.length)
    else none
  | .criterion i x =>
    r.criteria[i]?.bind fun c => o.criteria[i]?.bind fun a => a.violation? i c x
  | .total =>
    let computed := Points.total (o.criteria.map (·.score))
    if !Points.same computed o.totalScore then some (.totalMismatch o.totalScore computed)
    else none
  | .maxScore =>
    if !Points.same r.totalPoints o.maxScore then
      some (.maxScoreMismatch o.maxScore r.totalPoints)
    else none

section

variable {i : Nat} {c : Criterion} {a : CriterionOutcome} {error : PublishError}

theorem CriterionOutcome.violation?_eq_some_iff {x : CriterionCheck} :
    a.violation? i c x = some error ↔ a.Violates i c x error := by
  -- Each check is one comparison, and the error names what has been compared.
  cases x with
  | id =>
    simp only [violation?, Option.ite_none_right_eq_some, Option.some_inj]
    exact ⟨fun ⟨h, heq⟩ => heq ▸ .id h, fun | .id h => ⟨h, rfl⟩⟩
  | dimension =>
    simp only [violation?, Option.ite_none_right_eq_some, Option.some_inj]
    exact ⟨fun ⟨h, heq⟩ => heq ▸ .dimension h, fun | .dimension h => ⟨h, rfl⟩⟩
  | maxPoints =>
    simp only [violation?, Option.ite_none_right_eq_some, Option.some_inj, Bool.not_eq_true']
    exact ⟨fun ⟨h, heq⟩ => heq ▸ .maxPoints h, fun | .maxPoints h => ⟨h, rfl⟩⟩
  | score =>
    simp only [violation?, Option.ite_none_right_eq_some, Option.some_inj, Bool.not_eq_true']
    exact ⟨fun ⟨h, heq⟩ => heq ▸ .score h, fun | .score h => ⟨h, rfl⟩⟩

/-- Something is said of a check if and only if it is not passed. -/
theorem Outcome.violation?_eq_some_iff {o : Outcome} {r : Rubric} {x : OutcomeCheck} :
    o.violation? r x = some error ↔ o.Violates r x error := by
  cases x with
  | fullPoints =>
    simp only [violation?, Option.ite_none_right_eq_some, Option.some_inj, Bool.not_eq_true']
    exact ⟨fun ⟨h, heq⟩ => heq ▸ .fullPoints h, fun | .fullPoints h => ⟨h, rfl⟩⟩
  | count =>
    simp only [violation?, Option.ite_none_right_eq_some, Option.some_inj]
    exact ⟨fun ⟨h, heq⟩ => heq ▸ .count h, fun | .count h => ⟨h, rfl⟩⟩
  | criterion i x =>
    simp only [violation?, Option.bind_eq_some_iff, CriterionOutcome.violation?_eq_some_iff]
    constructor
    · rintro ⟨c, hc, a, ha, h⟩
      exact .criterion hc ha h
    · intro h
      cases h with
      | criterion hc ha h => exact ⟨_, hc, _, ha, h⟩
  | total =>
    simp only [violation?, Option.ite_none_right_eq_some, Option.some_inj, Bool.not_eq_true']
    exact ⟨fun ⟨h, heq⟩ => heq ▸ .total h, fun | .total h => ⟨h, rfl⟩⟩
  | maxScore =>
    simp only [violation?, Option.ite_none_right_eq_some, Option.some_inj, Bool.not_eq_true']
    exact ⟨fun ⟨h, heq⟩ => heq ▸ .maxScore h, fun | .maxScore h => ⟨h, rfl⟩⟩

end

/-! ### The first check that is not passed -/

/-- The checks on a criterion come one after another. -/
private theorem CriterionOutcome.error?_eq_findSome? (i : Nat) (c : Criterion)
    (a : CriterionOutcome) :
    a.error? i c = CriterionCheck.all.findSome? (a.violation? i c) := by
  unfold error? CriterionCheck.all
  simp only [List.findSome?_cons_eq_or, List.findSome?_nil, violation?, Option.ite_some_or]

/-- The criteria come one after another. -/
private theorem criteriaError?_eq_findSome? (k : Nat) (cs : List Criterion)
    (as : List CriterionOutcome) :
    criteriaError? k cs as = (List.range cs.length).findSome? fun i =>
      cs[i]?.bind fun c => as[i]?.bind fun a => a.error? (k + i) c := by
  induction cs generalizing k as with
  | nil => rfl
  | cons c cs ih =>
    cases as with
    | nil =>
      -- Without outcomes left nothing is said of the criteria left.
      refine (List.findSome?_eq_none_iff.2 fun i _ => ?_).symm
      simp only [List.getElem?_nil, Option.bind_none, Option.bind_fun_none]
    | cons a as =>
      rw [criteriaError?, ih, List.length_cons, List.range_succ_eq_map,
        List.findSome?_cons_eq_or, List.findSome?_map, Option.orElse_eq_orElse,
        Option.orElse_eq_or]
      -- The positions behind the first one are counted from there.
      simp only [Function.comp_def, List.getElem?_cons_zero, List.getElem?_cons_succ,
        Option.bind_some, Nat.add_zero, Nat.succ_eq_add_one, Nat.add_right_comm k 1,
        Nat.add_assoc k]

/-- What is said of a position is said by its checks. -/
private theorem findSome?_position (o : Outcome) (r : Rubric) (i : Nat) :
    (CriterionCheck.all.map (.criterion i)).findSome? (o.violation? r)
      = r.criteria[i]?.bind fun c => o.criteria[i]?.bind fun a => a.error? i c := by
  rw [List.findSome?_map]
  simp only [Function.comp_def, Outcome.violation?, CriterionOutcome.error?_eq_findSome?]
  cases r.criteria[i]? with
  | none => rfl
  | some c =>
    cases o.criteria[i]? with
    | none => rfl
    | some a => rfl

/-- The first check that is not passed counts. -/
theorem Rubric.outcomeError?_eq_findSome? (r : Rubric) (o : Outcome) :
    r.outcomeError? o = r.checks.findSome? (o.violation? r) := by
  unfold outcomeError? checks
  rw [criteriaError?_eq_findSome?]
  simp only [List.findSome?_append, List.findSome?_flatMap, findSome?_position,
    List.findSome?_cons_eq_or, List.findSome?_nil, Outcome.violation?, Option.ite_some_or,
    Option.orElse_eq_orElse, Option.orElse_eq_or, Option.or_none, Nat.zero_add]

/-! ### Numbers that are not finite -/

/-- All numbers of the outcome are finite. -/
structure Outcome.IsFinite (o : Outcome) : Prop where
  total : o.totalScore.isFinite = true
  max : o.maxScore.isFinite = true
  scores : ∀ a ∈ o.criteria, a.score.isFinite = true
  points : ∀ a ∈ o.criteria, a.maxPoints.isFinite = true

/-- All numbers of an outcome that fits take part in a comparison, and are finite. -/
theorem Outcome.Fits.isFinite {o : Outcome} {r : Rubric} (h : o.Fits r) : o.IsFinite := by
  constructor
  · exact (Points.isFinite_of_same h.total).2
  · exact (Points.isFinite_of_same h.max).2
  · intro a ha
    -- The check of the criterion compares its number, and is passed.
    obtain ⟨c, -, hc⟩ := h.criteria.exists_of_mem_right ha
    exact (Points.isFinite_of_same hc.consistent).1
  · intro a ha
    obtain ⟨c, -, hc⟩ := h.criteria.exists_of_mem_right ha
    exact (Points.isFinite_of_same hc.maxPoints).2

/-! ### Publishing or refusing -/

/-- An outcome is published if and only if it fits the rubric. Otherwise it is refused with the
first check that it does not pass, and the journal stays as it is. Whatever is not finite in an
outcome, it is refused. -/
theorem Rubric.publishes_or_refuses (r : Rubric) (o : Outcome) (m : Manifest) (j : Journal) :
    ((∃ out, (r.publish o m).result j = .ok out) ↔ o.Fits r) ∧
    (∀ error, (r.publish o m).result j = .error error ↔
      ∃ front x back, r.checks = front ++ x :: back ∧ o.Violates r x error ∧
        ∀ y ∈ front, ∀ error', ¬ o.Violates r y error') ∧
    (∀ error, (r.publish o m).result j = .error error → (r.publish o m).journal j = j) ∧
    (¬ o.IsFinite → ∃ error, (r.publish o m).result j = .error error) := by
  have hok : (∃ out, (r.publish o m).result j = .ok out) ↔ o.Fits r := by
    simp only [publish_eq_ok_iff]
    exact ⟨fun ⟨_, hfits, _⟩ => hfits, fun hfits => ⟨_, hfits, rfl⟩⟩
  refine ⟨hok, fun error => ?_, fun error h => ?_, fun hfinite => ?_⟩
  · -- The error is that of the check, and the checks come in their order.
    have herror : (r.publish o m).result j = .error error ↔ r.outcomeError? o = some error := by
      rw [result_publish]
      cases r.outcomeError? o with
      | none => simp
      | some error' => simp
    rw [herror, outcomeError?_eq_findSome?, List.findSome?_eq_some_iff]
    simp only [Outcome.violation?_eq_some_iff, Option.eq_none_iff_forall_ne_some, ne_eq]
  · rw [result_publish] at h
    unfold publish Attempt.journal
    cases hcheck : r.outcomeError? o with
    | none =>
      rw [hcheck] at h
      exact nomatch h
    | some error' => rfl
  · cases hresult : (r.publish o m).result j with
    | error error => exact ⟨error, rfl⟩
    | ok out => exact absurd (hok.1 ⟨out, hresult⟩).isFinite hfinite

end Scorecard
