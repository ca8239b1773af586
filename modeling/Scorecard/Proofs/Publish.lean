import Scorecard.Engine.Basic
import Scorecard.Proofs.Evaluation
import Scorecard.Proofs.Except
import Scorecard.Proofs.Journal
import Scorecard.Proofs.Lists
import Scorecard.Proofs.Points

/-!
# Publishing what has been evaluated

The checks that come before publishing ask whether an outcome fits the rubric. An outcome that gives
every criterion a status does, and so does that of an evaluation: it has the criteria of the rubric
in their order, the points are the same on both sides, and the sums stay finite. So its score can be
published whatever the manifest says.

* `Outcome.Fits`, `Rubric.outcomeError?_eq_none_iff`: what the checks ask.
* `Outcome.Grades`, `Outcome.Grades.fits`: an outcome that comes from statuses fits the rubric.
* `Evaluator.Settles.fits`: so does the outcome of an evaluation.
* `Outcome.Fits.result_publish`: an outcome that fits is published.
* `ScoreOutput.SamePoints`, `Rubric.publish_keeps_points`: whatever evidence has been lost, the
  points are the same.
-/

namespace Scorecard

/-- The outcome for one criterion agrees with the criterion. -/
structure CriterionOutcome.Agrees (actual : CriterionOutcome) (expected : Criterion) : Prop where
  id : expected.id = actual.criterionId
  dimension : expected.dimension = actual.dimension
  maxPoints : Points.same expected.maxPoints actual.maxPoints = true
  consistent : actual.isConsistent = true

/-- An outcome that a rubric worth full points can have. -/
structure Outcome.Fits (o : Outcome) (r : Rubric) : Prop where
  full : Points.same r.totalPoints Rubric.fullPoints = true
  criteria : List.Forall₂ (fun c o => CriterionOutcome.Agrees o c) r.criteria o.criteria
  total : Points.same (Points.total (o.criteria.map (·.score))) o.totalScore = true
  max : Points.same r.totalPoints o.maxScore = true

/-! ### The checks -/

/-- There is nothing wrong with an outcome that agrees with its criterion. -/
private theorem CriterionOutcome.error?_eq_none_iff {i : Nat} {expected : Criterion}
    {actual : CriterionOutcome} :
    actual.error? i expected = none ↔ actual.Agrees expected := by
  unfold CriterionOutcome.error?
  -- One check after another has to be passed.
  simp only [Option.ite_some_eq_none_iff, not_not, Bool.not_eq_true', Bool.not_eq_false, and_true]
  constructor
  · rintro ⟨hid, hdimension, hpoints, hscore⟩
    exact ⟨hid, hdimension, hpoints, hscore⟩
  · rintro ⟨hid, hdimension, hpoints, hscore⟩
    exact ⟨hid, hdimension, hpoints, hscore⟩

/-- There is nothing wrong with outcomes that agree with their criteria one by one. -/
private theorem criteriaError?_eq_none_iff {i : Nat} {cs : List Criterion}
    {os : List CriterionOutcome} (h : os.length = cs.length) :
    criteriaError? i cs os = none ↔
      List.Forall₂ (fun c o => CriterionOutcome.Agrees o c) cs os := by
  induction cs generalizing i os with
  | nil =>
    rw [List.length_eq_zero_iff.1 h]
    simp [criteriaError?]
  | cons c cs ih =>
    cases os with
    | nil => exact nomatch h
    | cons o os =>
      -- The first error counts, so that neither this criterion nor a later one may have any.
      rw [criteriaError?, List.forall₂_cons, ← ih (i := i + 1) (by simpa using h),
        ← CriterionOutcome.error?_eq_none_iff (i := i)]
      cases o.error? i c <;> simp

/-- Nothing is wrong with an outcome if and only if it fits. -/
theorem Rubric.outcomeError?_eq_none_iff {r : Rubric} {o : Outcome} :
    r.outcomeError? o = none ↔ o.Fits r := by
  unfold Rubric.outcomeError?
  simp only [Option.ite_some_eq_none_iff, Option.orElse_eq_orElse, Option.orElse_eq_or,
    Option.or_eq_none_iff, not_not, Bool.not_eq_true', Bool.not_eq_false, and_true]
  constructor
  · rintro ⟨hfull, hlength, hcriteria, htotal, hmax⟩
    exact ⟨hfull, (criteriaError?_eq_none_iff hlength).1 hcriteria, htotal, hmax⟩
  · rintro ⟨hfull, hagrees, htotal, hmax⟩
    have hlength := hagrees.length_eq.symm
    exact ⟨hfull, hlength, (criteriaError?_eq_none_iff hlength).2 hagrees, htotal, hmax⟩

/-! ### Outcomes by statuses -/

/-- The outcome for a criterion that is given a status, and refers to some evidence. -/
def Criterion.graded (c : Criterion) (status : Status) (ids : List String) : CriterionOutcome where
  criterionId := c.id
  dimension := c.dimension
  maxPoints := c.maxPoints
  status
  score := status.points c.maxPoints
  evidenceIds := ids

/-- The outcome comes from statuses that are given to the criteria of a rubric. -/
structure Outcome.Grades (o : Outcome) (r : Rubric) : Prop where
  criteria : List.Forall₂ (fun c a => ∃ status ids, a = c.graded status ids) r.criteria o.criteria
  sums : o = .ofCriteria o.criteria r.totalPoints

/-- Statuses and evidence can be chosen for each criterion. -/
theorem Rubric.grades_ofCriteria (r : Rubric) (status : Criterion → Status)
    (ids : Criterion → List String) :
    (Outcome.ofCriteria (r.criteria.map fun c => c.graded (status c) (ids c))
      r.totalPoints).Grades r := by
  refine ⟨?_, rfl⟩
  change List.Forall₂ _ r.criteria (r.criteria.map fun c => c.graded (status c) (ids c))
  rw [List.forall₂_map_right_iff, List.forall₂_same]
  exact fun c _ => ⟨status c, ids c, rfl⟩

/-- The points of a valid criterion are worth more than nothing. -/
theorem Criterion.Valid.exists_worth {registry : Registry} {c : Criterion}
    (h : c.Valid registry) : ∃ q, Binary64.Worth c.maxPoints q ∧ 0 < q := by
  obtain ⟨q, hworth, -⟩ := Binary64.exists_worth h.finite
  exact ⟨q, hworth, hworth.pos h.positive⟩

namespace Outcome.Grades

variable {o : Outcome} {r : Rubric} {registry : Registry}

/-- What holds of a valid criterion with any status holds of all criteria of a valid rubric. -/
theorem forall₂ (h : o.Grades r) (hvalid : r.Valid registry)
    {p : Criterion → CriterionOutcome → Prop}
    (hp : ∀ c status ids, c.Valid registry → p c (c.graded status ids)) :
    List.Forall₂ p r.criteria o.criteria := by
  have hboth := (List.forall₂_and_left _ _).2 ⟨hvalid.criteria, h.criteria⟩
  refine hboth.imp ?_
  rintro c a ⟨hc, status, ids, rfl⟩
  exact hp c status ids hc

/-- The scores lie between nothing and the points. -/
theorem within_points (h : o.Grades r) (hvalid : r.Valid registry) :
    List.Forall₂ Points.Within (o.criteria.map (·.score)) (r.criteria.map (·.maxPoints)) := by
  rw [List.forall₂_map_left_iff, List.forall₂_map_right_iff]
  refine List.Forall₂.flip (h.forall₂ hvalid fun c status ids hc => ?_)
  obtain ⟨q, hworth, hq⟩ := hc.exists_worth
  exact status.within_points hworth hq.le

/-- An outcome that comes from statuses fits the rubric. -/
theorem fits (h : o.Grades r) (hvalid : r.Valid registry) : o.Fits r := by
  have hagrees : List.Forall₂ (fun c a => CriterionOutcome.Agrees a c) r.criteria o.criteria := by
    refine h.forall₂ hvalid fun c status ids hc => ?_
    obtain ⟨q, hworth, hq⟩ := hc.exists_worth
    exact ⟨rfl, rfl, Points.same_self hc.finite, status.isConsistent_points hworth hq.le⟩
  -- The points have a finite total as it counts as equal to the full points, and the scores have
  -- one as they lie below the points.
  have hpoints : r.totalPoints.isFinite = true := (Points.isFinite_of_same hvalid.total).1
  have hscores := Points.isFinite_total (h.within_points hvalid) hpoints
  rw [h.sums]
  exact ⟨hvalid.total, hagrees, Points.same_self hscores, Points.same_self hpoints⟩

end Outcome.Grades

/-! ### The outcome of an evaluation -/

namespace Evaluator

variable {e : Evaluator} {r : Rubric} {s : Snapshot} {language : String} {ds : List Decided}

/-- The outcome of an evaluation comes from the statuses of the verdicts. -/
theorem Settles.grades (h : e.Settles r s language ds) : (assemble r ds).outcome.Grades r := by
  refine ⟨?_, rfl⟩
  change List.Forall₂ _ r.criteria (ds.map (·.outcome))
  rw [List.forall₂_map_right_iff]
  refine h.decided.imp ?_
  rintro c d ⟨v, -, rfl⟩
  exact ⟨v.status, _, rfl⟩

/-- The outcome of an evaluation fits the rubric. -/
theorem Settles.fits (h : e.Settles r s language ds) : (assemble r ds).outcome.Fits r :=
  h.grades.fits h.valid

end Evaluator

/-! ### The score -/

/-- What comes out of publishing. -/
theorem Rubric.result_publish (r : Rubric) (o : Outcome) (m : Manifest) (j : Journal) :
    (r.publish o m).result j = match r.outcomeError? o with
      | some error => .error error
      | none => .ok (r.score o m) := by
  unfold Rubric.publish
  cases r.outcomeError? o with
  | some error => rfl
  | none => rfl

/-- An outcome that fits is published, whatever the manifest says. -/
theorem Outcome.Fits.result_publish {o : Outcome} {r : Rubric} (h : o.Fits r) (m : Manifest)
    (j : Journal) : (r.publish o m).result j = .ok (r.score o m) := by
  rw [Rubric.result_publish, Rubric.outcomeError?_eq_none_iff.2 h]

/-- A score is published if and only if the outcome fits, and it is that of the outcome. -/
theorem Rubric.publish_eq_ok_iff {r : Rubric} {o : Outcome} {m : Manifest} {j : Journal}
    {out : ScoreOutput} :
    (r.publish o m).result j = .ok out ↔ o.Fits r ∧ out = r.score o m := by
  rw [result_publish, ← outcomeError?_eq_none_iff]
  cases r.outcomeError? o with
  | none => simp [eq_comm]
  | some error => simp

/-! ### Lost evidence -/

/-- Two scores with the same points and the same grade. -/
structure ScoreOutput.SamePoints (out out' : ScoreOutput) : Prop where
  total : out'.totalScore = out.totalScore
  max : out'.maxScore = out.maxScore
  percentage : out'.percentage = out.percentage
  grade : out'.grade = out.grade
  breakdowns : out'.breakdowns = out.breakdowns
  /-- Only what is said of the evidence is different, and the summary with it. -/
  rest : out' = { out with
    evidencePaths := out'.evidencePaths
    warnings := out'.warnings
    summary := out'.summary }

/-- The points of a score do not depend on the manifest. -/
private theorem Rubric.samePoints_score (r : Rubric) (o : Outcome) (m m' : Manifest) :
    (r.score o m).SamePoints (r.score o m') :=
  ⟨rfl, rfl, rfl, rfl, rfl, rfl⟩

/-- Whatever evidence has been lost, an outcome is refused for the same reason, or published with
the same points, which are those of the outcome. -/
theorem Rubric.publish_keeps_points (r : Rubric) (o : Outcome) (m m' : Manifest)
    (j j' : Journal) :
    (∃ error, (r.publish o m).result j = .error error ∧
      (r.publish o m').result j' = .error error) ∨
    ∃ out out', (r.publish o m).result j = .ok out ∧ (r.publish o m').result j' = .ok out' ∧
      out.SamePoints out' ∧ out.totalScore = o.totalScore ∧ out.maxScore = o.maxScore := by
  rw [result_publish, result_publish]
  -- The checks do not look at the manifest.
  cases r.outcomeError? o with
  | some error => exact .inl ⟨error, rfl, rfl⟩
  | none => exact .inr ⟨_, _, rfl, rfl, r.samePoints_score o m m', rfl, rfl⟩

end Scorecard
