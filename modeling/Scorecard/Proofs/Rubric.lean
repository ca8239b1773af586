import Scorecard.Proofs.Normal
import Scorecard.Proofs.Table
import Scorecard.Rubric.Issues

/-!
# Valid rubrics

A rubric without issues is one that satisfies a list of conditions, and those are what the rest of
the theory works with. The parameters of a criterion are checked for the languages it has
overrides for; as a language is looked up in its normal form, that covers all languages.

* `Rubric.Valid`, `Rubric.issues_eq_nil_iff`: what it means to have no issues.
* `Criterion.Accepts.effectiveParams`: a rule takes the parameters for every language.
-/

namespace Scorecard

/-- The rule takes the criterion's parameters, by default and for each language that the criterion
has overrides for. -/
structure Criterion.Accepts (c : Criterion) (rule : Rule) : Prop where
  default : rule.validate c.params = .ok ()
  overrides : ∀ language ∈ c.overrides.keys, rule.validate (c.effectiveParams language) = .ok ()

/-- A criterion that a registry can judge. -/
structure Criterion.Valid (registry : Registry) (c : Criterion) : Prop where
  id : isCriterionId c.id = true
  finite : c.maxPoints.isFinite = true
  positive : 0 < c.maxPoints
  rule : ∃ rule, registry.get? c.rule = some rule ∧ c.Accepts rule

/-- A rubric that a registry can judge, worth full points. -/
structure Rubric.Valid (registry : Registry) (r : Rubric) : Prop where
  nonempty : r.criteria ≠ []
  criteria : ∀ c ∈ r.criteria, c.Valid registry
  distinct : (r.criteria.map (·.id)).Nodup
  attached : r.danglingOverrides = []
  weights : ∀ name declared, (name, declared) ∈ r.declaredWeights.entries →
    ∃ d, Dimension.ofKey? name = some d ∧ Points.same declared (r.weight d) = true
  total : Points.same r.totalPoints Rubric.fullPoints = true

/-! ### Parameters -/

namespace Criterion

/-- Parameters have no issue if they are accepted. -/
private theorem paramsIssue_eq_nil_iff {c : Criterion} {language : Option String}
    {result : Except RuleError Unit} : c.paramsIssue language result = [] ↔ result = .ok () := by
  cases result with
  | error e => simp [paramsIssue]
  | ok u => simp [paramsIssue]

/-- A criterion has no issue with its parameters if the rule accepts them for all languages. -/
private theorem paramsIssues_eq_nil_iff {c : Criterion} {rule : Rule} :
    c.paramsIssues rule = [] ↔ c.Accepts rule := by
  unfold paramsIssues
  rw [List.append_eq_nil_iff, paramsIssue_eq_nil_iff, List.flatMap_eq_nil_iff]
  constructor
  · rintro ⟨h1, h2⟩
    exact ⟨h1, fun language hl => paramsIssue_eq_nil_iff.1 (h2 language hl)⟩
  · rintro ⟨h1, h2⟩
    exact ⟨h1, fun language hl => paramsIssue_eq_nil_iff.2 (h2 language hl)⟩

/-- A criterion has no issue with its rule if there is the rule and it accepts the parameters. -/
private theorem ruleIssues_eq_nil_iff {c : Criterion} {registry : Registry} :
    c.ruleIssues registry = [] ↔ ∃ rule, registry.get? c.rule = some rule ∧ c.Accepts rule := by
  unfold ruleIssues
  cases h : registry.get? c.rule with
  | none => simp
  | some rule => simp [paramsIssues_eq_nil_iff]

/-- The overrides for a language are those for its normal form. -/
theorem effectiveParams_normal (c : Criterion) (language : String) :
    c.effectiveParams (Text.normal language) = c.effectiveParams language := by
  unfold effectiveParams
  rw [Text.normal_normal]

/-- A rule that takes the parameters for the languages named takes them for every language. -/
theorem Accepts.effectiveParams {c : Criterion} {rule : Rule} (h : c.Accepts rule)
    (language : String) : rule.validate (c.effectiveParams language) = .ok () := by
  cases hget : c.overrides.get? (Text.normal language) with
  | none =>
    -- no overrides for the language
    unfold Criterion.effectiveParams
    rw [hget]
    exact h.default
  | some special =>
    have hkey : Text.normal language ∈ c.overrides.keys := Table.mem_keys_iff.2 ⟨special, hget⟩
    -- The validation has tried the normal form, and every spelling looks that one up.
    rw [← effectiveParams_normal]
    exact h.overrides _ hkey

/-! ### Criteria -/

/-- A criterion has no issue if it is valid and its id is new. -/
private theorem issues_eq_nil_iff {c : Criterion} {registry : Registry} {earlier : List String} :
    c.issues registry earlier = [] ↔ c.Valid registry ∧ c.id ∉ earlier := by
  unfold issues
  -- Every check adds at most one issue, so that there is none if all checks pass.
  simp only [List.append_eq_nil_iff, ite_eq_left_iff, ite_eq_right_iff, List.cons_ne_self,
    imp_false, not_not, Bool.and_eq_true, decide_eq_true_eq, ruleIssues_eq_nil_iff]
  constructor
  · rintro ⟨⟨⟨hid, hnew⟩, hfinite, hpos⟩, hrule⟩
    exact ⟨⟨hid, hfinite, hpos, hrule⟩, hnew⟩
  · rintro ⟨⟨hid, hfinite, hpos, hrule⟩, hnew⟩
    exact ⟨⟨⟨hid, hnew⟩, hfinite, hpos⟩, hrule⟩

end Criterion

/-- Criteria have no issue if all are valid and their ids are new and different. -/
private theorem criteriaIssues_eq_nil_iff {registry : Registry} {earlier : List String}
    {cs : List Criterion} :
    criteriaIssues registry earlier cs = [] ↔ (∀ c ∈ cs, c.Valid registry ∧ c.id ∉ earlier) ∧
      (cs.map (·.id)).Nodup := by
  induction cs generalizing earlier with
  | nil => simp [criteriaIssues]
  | cons c rest ih =>
    rw [criteriaIssues, List.append_eq_nil_iff, Criterion.issues_eq_nil_iff, ih,
      List.forall_mem_cons, List.map_cons, List.nodup_cons]
    simp only [List.mem_cons, not_or, List.mem_map, not_exists, not_and]
    -- The ids seen earlier are handed on, so that a later criterion differs from all before it.
    constructor
    · rintro ⟨hc, hrest, hnodup⟩
      exact ⟨⟨hc, fun c' hc' => ⟨(hrest c' hc').1, (hrest c' hc').2.2⟩⟩,
        fun c' hc' => (hrest c' hc').2.1, hnodup⟩
    · rintro ⟨⟨hc, hrest⟩, hnew, hnodup⟩
      exact ⟨hc, fun c' hc' => ⟨(hrest c' hc').1, hnew c' hc', (hrest c' hc').2⟩, hnodup⟩

/-! ### Rubrics -/

namespace Rubric

/-- A weight has no issue if it names a dimension and is that of its criteria. -/
private theorem weightIssues_eq_nil_iff {r : Rubric} {name : String} {declared : Float} :
    r.weightIssues name declared = [] ↔
      ∃ d, Dimension.ofKey? name = some d ∧ Points.same declared (r.weight d) = true := by
  unfold weightIssues
  cases h : Dimension.ofKey? name with
  | none => simp
  | some d => simp

/-- The total has no issue if it is one hundred. -/
private theorem totalIssues_eq_nil_iff {r : Rubric} (h : r.criteria ≠ []) :
    r.totalIssues = [] ↔ Points.same r.totalPoints fullPoints = true := by
  have hfalse : r.criteria.isEmpty = false := by
    rwa [List.isEmpty_eq_false_iff]
  unfold totalIssues
  rw [hfalse, Bool.false_or]
  simp

/-- A rubric has no issues if and only if it is valid. -/
theorem issues_eq_nil_iff {registry : Registry} {r : Rubric} :
    r.issues registry = [] ↔ r.Valid registry := by
  unfold issues
  simp only [List.append_eq_nil_iff, ite_eq_right_iff, reduceCtorEq, imp_false,
    List.isEmpty_iff, List.map_eq_nil_iff, List.flatMap_eq_nil_iff, Prod.forall,
    criteriaIssues_eq_nil_iff, weightIssues_eq_nil_iff, List.not_mem_nil, not_false_eq_true,
    and_true]
  constructor
  · rintro ⟨⟨⟨⟨hne, hcriteria, hdistinct⟩, hattached⟩, hweights⟩, htotal⟩
    exact ⟨hne, hcriteria, hdistinct, hattached, hweights, (totalIssues_eq_nil_iff hne).1 htotal⟩
  · rintro ⟨hne, hcriteria, hdistinct, hattached, hweights, htotal⟩
    exact ⟨⟨⟨⟨hne, hcriteria, hdistinct⟩, hattached⟩, hweights⟩,
      (totalIssues_eq_nil_iff hne).2 htotal⟩

end Rubric

end Scorecard
