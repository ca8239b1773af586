import Scorecard.Proofs.Locality

/-!
# Missing data

A tool that has not run is never taken for one that has failed, nor the other way round. Where the
data is absent that a rule reads, the verdict is unmet without points, and its only evidence says
with low confidence what is unavailable. Where the data is there, no evidence says that anything is
unavailable, whatever the data shows; and confidence is low only on the documented items of a
project without public items, which counts as met.

What is absent is a report, for the rules that have a category of their own. For the rule on any
metric it is a number, and a report may be there without it.

* `Metric.Absent`, `Metric.read?_eq_none_iff`: when there is no number for a metric.
* `Snapshot.Lacks`: the data is absent that a rule reads under some parameters.
* `TypedRule.TellsMissing`: a rule tells missing data from data that shows nothing good.
* `Rule.judges_missing_data`: every rule does.
-/

namespace Scorecard

/-! ### Data that is absent -/

/-- The snapshot has no report of the category. -/
def Category.Absent : Category → Snapshot → Prop
  | lint, s => s.lint = none
  | build, s => s.build = none
  | dependencyAudit, s => s.dependencyAudit = none
  | tests, s => s.tests = none
  | coverage, s => s.coverage = none
  | documentation, s => s.documentation = none

/-- The snapshot has no number for the metric. -/
inductive Metric.Absent (s : Snapshot) : Metric → Prop
  /-- There is no report that would have the number. -/
  | report {m : Metric} (h : m.report.Absent s) : Absent s m
  /-- The report on coverage says nothing of branches. -/
  | branches {r : CoverageReport} (hr : s.coverage = some r) (h : r.branchPercent = none) :
    Absent s .branchCoverage
  /-- No test has been found, so that there is no share of them. -/
  | tests {r : TestReport} (hr : s.tests = some r) (h : r.total = 0) : Absent s .testPassRate
  /-- There are no public items, so that there is no share of them. -/
  | items {r : DocumentationReport} (hr : s.documentation = some r) (h : r.totalItems = 0) :
    Absent s .documentedShare

theorem ratio?_eq_none_iff {part whole : UInt64} : ratio? part whole = none ↔ whole = 0 := by
  unfold ratio?
  split
  · next h => simp [h]
  · next h => simp [h]

namespace Metric

variable {m : Metric} {s : Snapshot}

theorem Absent.read?_eq_none (h : m.Absent s) : m.read? s = none := by
  cases h with
  | report h =>
    cases m with
    -- For these metrics every report has a number.
    | lintIssues | lintErrors | lintWarnings | buildWarnings | vulnerabilities | testCount
    | lineCoverage => exact Option.map_eq_none_iff.2 h
    -- These three may be without one, but without a report they are so in any case.
    | testPassRate | branchCoverage | documentedShare =>
      exact Option.bind_eq_none_iff.2 fun r hr => nomatch h.symm.trans hr
  | branches hr h => exact (congrArg (Option.bind · _) hr).trans h
  | tests hr h => exact (congrArg (Option.bind · _) hr).trans (ratio?_eq_none_iff.2 h)
  | items hr h => exact (congrArg (Option.bind · _) hr).trans (ratio?_eq_none_iff.2 h)

/-- A metric has no number where its report is missing, and beyond that where the report has no
branches, no tests or no items to count. -/
theorem read?_eq_none_iff : m.read? s = none ↔ m.Absent s := by
  refine ⟨fun h => ?_, Absent.read?_eq_none⟩
  cases m with
  | lintIssues | lintErrors | lintWarnings | buildWarnings | vulnerabilities | testCount
  | lineCoverage => exact .report (Option.map_eq_none_iff.1 h)
  -- Only for these three there are two ways to be without a number.
  | testPassRate =>
    cases hr : s.tests with
    | none => exact .report hr
    | some r => exact .tests hr (ratio?_eq_none_iff.1 (Option.bind_eq_none_iff.1 h r hr))
  | branchCoverage =>
    cases hr : s.coverage with
    | none => exact .report hr
    | some r => exact .branches hr (Option.bind_eq_none_iff.1 h r hr)
  | documentedShare =>
    cases hr : s.documentation with
    | none => exact .report hr
    | some r => exact .items hr (ratio?_eq_none_iff.1 (Option.bind_eq_none_iff.1 h r hr))

end Metric

/-- The snapshot lacks the data that a rule reads under some parameters: the number of its metric,
for the rule on any metric, and the report of its category, for every other rule. -/
inductive Snapshot.Lacks (s : Snapshot) (params : Params) : Rule → Prop
  | number {t : Rule.MetricThreshold.Thresholds}
    (hparams : Rule.MetricThreshold.rule.read params = .ok t) (h : t.metric.read? s = none) :
    Lacks s params Rule.MetricThreshold.rule.toRule
  | report {rule : Rule} {k : Category} (hrule : rule.name ≠ Rule.MetricThreshold.rule.name)
    (hk : Category.ofRules.lookup rule.name = some k) (h : k.Absent s) : Lacks s params rule

theorem Category.ofRule?_metricThreshold {params : Params}
    {t : Rule.MetricThreshold.Thresholds} (hread : Rule.MetricThreshold.rule.read params = .ok t) :
    ofRule? Rule.MetricThreshold.rule.name params = some t.metric.report := by
  unfold ofRule?
  rw [if_pos rfl, hread]
  rfl

namespace Snapshot.Lacks

variable {s : Snapshot} {params : Params}

theorem iff_absent {rule : Rule} {k : Category} (hrule : rule.name ≠ Rule.MetricThreshold.rule.name)
    (hk : Category.ofRules.lookup rule.name = some k) : s.Lacks params rule ↔ k.Absent s := by
  constructor
  -- The first case is about the rule on any metric, which the name excludes.
  · rintro (⟨_, _⟩ | ⟨_, hk', h⟩)
    · exact absurd rfl hrule
    · cases hk.symm.trans hk'
      exact h
  · exact .report hrule hk

theorem iff_read? {t : Rule.MetricThreshold.Thresholds}
    (hread : Rule.MetricThreshold.rule.read params = .ok t) :
    s.Lacks params Rule.MetricThreshold.rule.toRule ↔ t.metric.read? s = none := by
  constructor
  · rintro (⟨hread', h⟩ | ⟨hrule, _, _⟩)
    · cases hread.symm.trans hread'
      exact h
    · exact absurd rfl hrule
  · exact .number hread

end Snapshot.Lacks

/-! ### What verdicts say of it -/

namespace Draft

/-- The payload names something as unavailable. -/
def SaysUnavailable (d : Draft) : Prop :=
  ∃ members value, d.payload = .obj members ∧ ("unavailable", value) ∈ members

/-- The draft says something of data that is there, and does so with some confidence. -/
structure Informs (d : Draft) : Prop where
  payload : ¬ d.SaysUnavailable
  confidence : d.confidence ≠ .low

theorem not_saysUnavailable {d : Draft} {members : List (String × Json)}
    (hpayload : d.payload = .obj members) (hnames : "unavailable" ∉ members.map (·.1)) :
    ¬ d.SaysUnavailable := by
  rintro ⟨members', value, hpayload', hmem⟩
  cases Json.obj.inj (hpayload.symm.trans hpayload')
  exact hnames (List.mem_map_of_mem (f := (·.1)) hmem)

end Draft

namespace Verdict

variable {c : Criterion.Context} {v : Verdict} {Sparse : Prop}

/-- The verdict where there is nothing to judge by. -/
structure Uninformed (v : Verdict) (category : String) : Prop where
  status : v.status = .unmet
  score : v.score = 0
  evidence : ∃ d, v.evidence = [d] ∧ d.confidence = .low ∧
    d.payload = .obj [("unavailable", .str category)]

/-- A verdict by data that is there. Confidence is low only where it is met for want of anything to
find fault with. -/
structure Informed (v : Verdict) (Sparse : Prop) : Prop where
  payload : ∀ d ∈ v.evidence, ¬ d.SaysUnavailable
  low : ∀ d ∈ v.evidence, d.confidence = .low → v.status = .met ∧ Sparse

theorem uninformed_unavailable (c : Criterion.Context) (category : String) :
    (unavailable c category).Uninformed category :=
  ⟨rfl, rfl, _, rfl, rfl, rfl⟩

theorem informed_of_informs (h : ∀ d ∈ v.evidence, d.Informs) : v.Informed Sparse :=
  ⟨fun d hd => (h d hd).payload, fun d hd hlow => absurd hlow (h d hd).confidence⟩

end Verdict

/-! ### Rules that tell missing data -/

/-- The rule tells missing data from data that is there. -/
structure TypedRule.TellsMissing {π : Type} (r : TypedRule π) (category : π → Category)
    (Missing : π → Snapshot → Prop) (Sparse : Snapshot → Prop) : Prop where
  missing : ∀ c s p, Missing p s → r.decide c s p = .unavailable c (category p).label
  present : ∀ c s p, ¬ Missing p s → (r.decide c s p).Informed (Sparse s)

/-- It is enough that the rule has something to say of all that it reads. -/
theorem TypedRule.TellsMissing.of_drafts {π ρ : Type} {r : TypedRule π} {category : π → Category}
    (read? : π → Snapshot → Option ρ) (status : ρ → π → Status) (drafts : ρ → π → List Draft)
    (hdecide : ∀ c s p, r.decide c s p =
      match read? p s with
      | none => .unavailable c (category p).label
      | some x => .ofStatus c (status x p) (drafts x p))
    (hdrafts : ∀ x p, ∀ d ∈ drafts x p, d.Informs) :
    r.TellsMissing category (fun p s => read? p s = none) fun _ => False where
  missing c s p h := by rw [hdecide, h]
  present c s p h := by
    obtain ⟨x, hx⟩ := Option.ne_none_iff_exists'.1 h
    rw [hdecide, hx]
    exact Verdict.informed_of_informs (hdrafts x p)

/-- It is enough that the rule decides so, where it is known what the rule reads. -/
theorem TypedRule.TellsMissing.judge {π : Type} {r : TypedRule π} {category : π → Category}
    {Missing : π → Snapshot → Prop} {Sparse Sparse' : Snapshot → Prop}
    (h : r.TellsMissing category Missing Sparse) {params : Params}
    (hparams : r.toRule.validate params = .ok ())
    (hreads : ∀ p, r.read params = .ok p →
      Category.ofRule? r.name params = some (category p) ∧
      ∀ s, s.Lacks params r.toRule ↔ Missing p s)
    (hsparse : ∀ s, Sparse s → Sparse' s) :
    ∃ k, Category.ofRule? r.name params = some k ∧ ∀ c s, ∃ v,
      r.toRule.judge c s params = .ok v ∧
      (s.Lacks params r.toRule → v.Uninformed k.label) ∧
      (¬ s.Lacks params r.toRule → v.Informed (Sparse' s)) := by
  -- What the rule reads is known once its parameters are.
  obtain ⟨p, haccept, hread, -⟩ := exists_accept hparams
  obtain ⟨hcategory, hlacks⟩ := hreads p hread
  refine ⟨category p, hcategory, fun c s => ⟨r.decide c s p, ?_, fun hs => ?_, fun hs => ?_⟩⟩
  · simp only [TypedRule.toRule, haccept]
  · rw [h.missing c s p ((hlacks s).1 hs)]
    exact Verdict.uninformed_unavailable c _
  -- The one condition on low confidence is passed on to the condition asked for.
  · have hinformed := h.present c s p fun hmissing => hs ((hlacks s).2 hmissing)
    exact ⟨hinformed.payload, fun d hd hlow => (hinformed.low d hd hlow).imp_right (hsparse s)⟩

namespace Rule

open Verdict

/-- A draft on findings says something of them. -/
private theorem Lint.informs_of_mem_findingsDrafts {r : LintReport} {d : Draft}
    (h : d ∈ findingsDrafts r) : d.Informs := by
  unfold findingsDrafts at h
  split at h
  · exact nomatch h
  · rw [List.mem_singleton.1 h]
    exact ⟨Draft.not_saysUnavailable rfl (by simp), by simp⟩

theorem Lint.tellsMissing :
    Lint.rule.TellsMissing (fun _ => .lint) (fun _ s => s.lint = none) fun _ => False := by
  -- The number of issues always has a draft, and the findings have another one if there are any.
  refine .of_drafts (fun _ s => s.lint)
    (fun r p => .ofTests (counted r p ≤ p.maxIssues) (p.partialMaxIssues.map (counted r p ≤ ·)))
    (fun r p => countsDraft r p :: findingsDrafts r) (fun c s p => ?_)
    fun r p => List.forall_mem_cons.2 ⟨?_, fun d => informs_of_mem_findingsDrafts⟩
  · change Lint.decide c s p = _
    unfold Lint.decide
    cases s.lint with
    | none => rfl
    | some r => rfl
  -- The names of all members are known, and "unavailable" is not among them.
  · exact ⟨Draft.not_saysUnavailable rfl (by simp), by simp [countsDraft]⟩

theorem Build.tellsMissing :
    Build.rule.TellsMissing (fun _ => .build) (fun _ s => s.build = none) fun _ => False := by
  refine .of_drafts (fun _ s => s.build) status (fun r p => [draft r p])
    (fun c s p => ?_) fun r p => List.forall_mem_singleton.2 ?_
  · change Build.decide c s p = _
    unfold Build.decide
    cases s.build with
    | none => rfl
    | some r => rfl
  · exact ⟨Draft.not_saysUnavailable rfl (by simp), by simp [draft]⟩

theorem Audit.tellsMissing :
    Audit.rule.TellsMissing (fun _ => .dependencyAudit) (fun _ s => s.dependencyAudit = none)
      fun _ => False := by
  refine .of_drafts (fun _ s => s.dependencyAudit) status (fun r p => [draft r p])
    (fun c s p => ?_) fun r p => List.forall_mem_singleton.2 ?_
  · change Audit.decide c s p = _
    unfold Audit.decide
    cases s.dependencyAudit with
    | none => rfl
    | some r => rfl
  · exact ⟨Draft.not_saysUnavailable rfl (by simp), by simp [draft]⟩

theorem Tests.tellsMissing :
    Tests.rule.TellsMissing (fun _ => .tests) (fun _ s => s.tests = none) fun _ => False := by
  refine .of_drafts (fun _ s => s.tests) status (fun r p => [draft r p])
    (fun c s p => ?_) fun r p => List.forall_mem_singleton.2 ?_
  · change Tests.decide c s p = _
    unfold Tests.decide
    cases s.tests with
    | none => rfl
    | some r => rfl
  · exact ⟨Draft.not_saysUnavailable rfl (by simp), by simp [draft]⟩

theorem Coverage.tellsMissing :
    Coverage.rule.TellsMissing (fun _ => .coverage) (fun _ s => s.coverage = none)
      fun _ => False := by
  refine .of_drafts (fun _ s => s.coverage)
    (fun r p => .ofTests (atLeast r.linePercent p.minPercent)
      (p.partialMinPercent.map (atLeast r.linePercent ·)))
    (fun r p => [draft r p]) (fun c s p => ?_) fun r p => List.forall_mem_singleton.2 ?_
  · change Coverage.decide c s p = _
    unfold Coverage.decide
    cases s.coverage with
    | none => rfl
    | some r => rfl
  · exact ⟨Draft.not_saysUnavailable rfl (by simp), by simp [draft]⟩

/-- A project without a README has been looked at. -/
theorem Readme.tellsMissing :
    Readme.rule.TellsMissing (fun _ => .documentation) (fun _ s => s.documentation = none)
      fun _ => False := by
  refine .of_drafts (fun _ s => s.documentation)
    (fun r p => if r.readmePresent then status r p else .unmet)
    (fun r p => [if r.readmePresent then draft r p else absentDraft])
    (fun c s p => ?_) fun r p => List.forall_mem_singleton.2 ?_
  · change Readme.decide c s p = _
    unfold Readme.decide
    cases s.documentation with
    | none => rfl
    | some r =>
      -- Whether there is a README is asked after the report has been found.
      dsimp only
      split
      · rfl
      · rfl
  -- Either draft is about a report that is there.
  · split
    · exact ⟨Draft.not_saysUnavailable rfl (by simp), by simp [draft]⟩
    · exact ⟨Draft.not_saysUnavailable rfl (by simp), by simp [absentDraft]⟩

/-- Where there are no public items there is nothing to find fault with, and confidence is low. -/
theorem ApiDocs.tellsMissing :
    ApiDocs.rule.TellsMissing (fun _ => .documentation) (fun _ s => s.documentation = none)
      fun s => ∃ r ∈ s.documentation, r.totalItems = 0 where
  missing c s p h := by
    change ApiDocs.decide c s p = _
    unfold ApiDocs.decide
    rw [h]
    rfl
  present c s p h := by
    obtain ⟨r, hr⟩ := Option.ne_none_iff_exists'.1 h
    change (ApiDocs.decide c s p).Informed _
    unfold ApiDocs.decide
    rw [hr]
    change (ofStatus c (status r p) [draft r p]).Informed _
    unfold status draft
    -- The lemma on drafts does not apply here, as one draft does have low confidence.
    cases hratio : r.ratio? with
    | none =>
      refine ⟨List.forall_mem_singleton.2 ?_, fun d _ _ => ⟨rfl, r, rfl, ?_⟩⟩
      · exact Draft.not_saysUnavailable rfl (by simp)
      · exact ratio?_eq_none_iff.1 hratio
    | some ratio =>
      refine informed_of_informs (List.forall_mem_singleton.2 ?_)
      exact ⟨Draft.not_saysUnavailable rfl (by simp), by simp⟩

theorem ProjectFiles.tellsMissing :
    ProjectFiles.rule.TellsMissing (fun _ => .documentation) (fun _ s => s.documentation = none)
      fun _ => False := by
  refine .of_drafts (fun _ s => s.documentation) status (fun r p => [draft r p])
    (fun c s p => ?_) fun r p => List.forall_mem_singleton.2 ?_
  · change ProjectFiles.decide c s p = _
    unfold ProjectFiles.decide
    cases s.documentation with
    | none => rfl
    | some r => rfl
  · exact ⟨Draft.not_saysUnavailable rfl (by simp), by simp [draft]⟩

theorem MetricThreshold.tellsMissing :
    MetricThreshold.rule.TellsMissing (·.metric.report) (fun t s => t.metric.read? s = none)
      fun _ => False := by
  -- What is read is the number and not the report, so that a report without it is missing data.
  refine .of_drafts (fun t s => t.metric.read? s) status (fun x t => [draft x t])
    (fun c s t => ?_) fun x t => List.forall_mem_singleton.2 ?_
  · change MetricThreshold.decide c s t = _
    unfold MetricThreshold.decide
    rw [Metric.label_report]
    cases t.metric.read? s with
    | none => rfl
    | some x => rfl
  · exact ⟨Draft.not_saysUnavailable rfl (by simp), by simp [draft]⟩

variable {rule : Rule} {params : Params}

/-- Every rule that every rubric can use tells missing data from data that shows nothing good. Where
the data is absent that it reads under the parameters, it judges a criterion as unmet without points
and has one draft, which says with low confidence that the category is unavailable. Where the data
is there, no draft says so, and a draft has low confidence only on the documented items of a project
without public items, which is met. A number is absent with its report, and where a report has no
branches, no tests or no items to count. -/
theorem judges_missing_data (hrule : rule ∈ Registry.builtinRules)
    (hparams : rule.validate params = .ok ()) :
    (∃ k, Category.ofRule? rule.name params = some k ∧ ∀ c s, ∃ v,
      rule.judge c s params = .ok v ∧
      (s.Lacks params rule → v.Uninformed k.label) ∧
      (¬ s.Lacks params rule → v.Informed
        (rule.name = ApiDocs.rule.name ∧ ∃ r ∈ s.documentation, r.totalItems = 0))) ∧
    ∀ t, rule = MetricThreshold.rule.toRule → MetricThreshold.rule.read params = .ok t →
      ∀ s, s.Lacks params rule ↔ t.metric.Absent s := by
  refine ⟨?_, fun t hmetric hread s => ?_⟩
  · unfold Registry.builtinRules at hrule
    simp only [List.mem_cons, List.not_mem_nil, or_false] at hrule
    -- All rules but the last one have a category of their own, in which the report is missing.
    have hreport {π : Type} {r : TypedRule π} {k : Category}
        (hname : r.name ≠ MetricThreshold.rule.name)
        (hk : Category.ofRules.lookup r.name = some k) :
        Category.ofRule? r.name params = some k ∧ ∀ s, s.Lacks params r.toRule ↔ k.Absent s :=
      ⟨(if_neg hname).trans hk, fun s => Snapshot.Lacks.iff_absent hname hk⟩
    rcases hrule with rfl | rfl | rfl | rfl | rfl | rfl | rfl | rfl | rfl
    · exact Lint.tellsMissing.judge hparams (fun _ _ => hreport (by decide) rfl) (by simp)
    · exact Build.tellsMissing.judge hparams (fun _ _ => hreport (by decide) rfl) (by simp)
    · exact Audit.tellsMissing.judge hparams (fun _ _ => hreport (by decide) rfl) (by simp)
    · exact Tests.tellsMissing.judge hparams (fun _ _ => hreport (by decide) rfl) (by simp)
    · exact Coverage.tellsMissing.judge hparams (fun _ _ => hreport (by decide) rfl) (by simp)
    · exact Readme.tellsMissing.judge hparams (fun _ _ => hreport (by decide) rfl) (by simp)
    -- The only rule with a case of low confidence.
    · exact ApiDocs.tellsMissing.judge hparams (fun _ _ => hreport (by decide) rfl)
        fun s hs => ⟨rfl, hs⟩
    · exact ProjectFiles.tellsMissing.judge hparams (fun _ _ => hreport (by decide) rfl) (by simp)
    -- The category is that of the metric, which the parameters say.
    · refine MetricThreshold.tellsMissing.judge hparams (fun t hread => ⟨?_, fun s => ?_⟩) (by simp)
      · exact Category.ofRule?_metricThreshold hread
      · exact Snapshot.Lacks.iff_read? hread
  · subst hmetric
    rw [Snapshot.Lacks.iff_read? hread, Metric.read?_eq_none_iff]

/-- A snapshot whose report on coverage says nothing of branches. -/
private def linesOnly : Snapshot where
  language := "Rust"
  lint := none
  build := none
  dependencyAudit := none
  tests := none
  coverage := some ⟨"llvm-cov", 87.5, none⟩
  documentation := none

/-- A report without branches is missing data for a threshold on branches. -/
theorem judges_missing_data_branches :
    let params : Params :=
      .ofList [("metric", .str "coverage.branch_percent"), ("met", .ofFloat 50)]
    (MetricThreshold.rule.toRule ∈ Registry.builtinRules ∧
      MetricThreshold.rule.toRule.validate params = .ok () ∧
      linesOnly.Lacks params MetricThreshold.rule.toRule) ∧
    ∀ c, ∃ v, MetricThreshold.rule.toRule.judge c linesOnly params = .ok v ∧
      v.Uninformed "coverage" := by
  intro params
  have hrule : MetricThreshold.rule.toRule ∈ Registry.builtinRules := by
    simp [Registry.builtinRules]
  have hparams : MetricThreshold.rule.toRule.validate params = .ok () := by decide +kernel
  obtain ⟨t, -, hread, -⟩ := TypedRule.exists_accept hparams
  have hmetric : (MetricThreshold.rule.read params).toOption.map (·.metric)
      = some .branchCoverage := by decide +kernel
  rw [hread] at hmetric
  have hmetric : t.metric = .branchCoverage := Option.some_inj.1 hmetric
  obtain ⟨⟨k, hk, hjudge⟩, hlacks⟩ := judges_missing_data hrule hparams
  have hmissing : linesOnly.Lacks params MetricThreshold.rule.toRule := by
    rw [hlacks t rfl hread, hmetric]
    exact .branches rfl rfl
  have hcategory : k = t.metric.report :=
    Option.some_inj.1 (hk.symm.trans (Category.ofRule?_metricThreshold hread))
  refine ⟨⟨hrule, hparams, hmissing⟩, fun c => ?_⟩
  obtain ⟨v, hv, huninformed, -⟩ := hjudge c linesOnly
  rw [hcategory, hmetric] at huninformed
  exact ⟨v, hv, huninformed hmissing⟩

end Rule

end Scorecard
