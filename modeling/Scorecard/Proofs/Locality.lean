import Scorecard.Proofs.Answers
import Scorecard.Proofs.Totality

/-!
# Grading is local

What an evaluation by the rules that every rubric can use says of a criterion depends on little:
on the criterion itself, on the language in normal form, and on one report of the snapshot. The
rest of the rubric, the place of the criterion in it and all other reports have no influence.

The report is the one of the rule's category. The rule on any metric has no category of its own; it
is that of the metric which its parameters name, for the language asked for.

* `Criterion.category?`: the category that a criterion is judged by.
* `TypedRule.ReadsOnly`, `Rule.Local`: a rule judges by the report of its category only.
* `Evaluator.decides_congr`: so does an evaluation, criterion by criterion.
* `Evaluator.evaluate_local`: two evaluations say the same of a criterion that they share.
-/

namespace Scorecard

/-- A category of reports. -/
inductive Category
  | lint
  | build
  | dependencyAudit
  | tests
  | coverage
  | documentation
  deriving DecidableEq, Repr

namespace Category

/-- Two snapshots have the same report of a category, or neither has one. -/
def Same : Category → Snapshot → Snapshot → Prop
  | lint, s, s' => s.lint = s'.lint
  | build, s, s' => s.build = s'.build
  | dependencyAudit, s, s' => s.dependencyAudit = s'.dependencyAudit
  | tests, s, s' => s.tests = s'.tests
  | coverage, s, s' => s.coverage = s'.coverage
  | documentation, s, s' => s.documentation = s'.documentation

/-- The name in messages. -/
def label : Category → String
  | lint => "lint"
  | build => "build"
  | dependencyAudit => "dependency audit"
  | tests => "test execution"
  | coverage => "coverage"
  | documentation => "documentation"

end Category

/-! ### Categories of metrics and rules -/

namespace Metric

/-- The category of the report that has the number. -/
def report : Metric → Category
  | lintIssues | lintErrors | lintWarnings => .lint
  | buildWarnings => .build
  | vulnerabilities => .dependencyAudit
  | testPassRate | testCount => .tests
  | lineCoverage | branchCoverage => .coverage
  | documentedShare => .documentation

theorem label_report (m : Metric) : m.report.label = m.category := by cases m <;> rfl

/-- A metric is read off the report of its category. -/
theorem read?_congr {m : Metric} {s s' : Snapshot} (h : m.report.Same s s') :
    m.read? s = m.read? s' := by
  cases m with
  | lintIssues | lintErrors | lintWarnings =>
    have hreport : s.lint = s'.lint := h
    simp only [read?, hreport]
  | buildWarnings =>
    have hreport : s.build = s'.build := h
    simp only [read?, hreport]
  | vulnerabilities =>
    have hreport : s.dependencyAudit = s'.dependencyAudit := h
    simp only [read?, hreport]
  | testPassRate | testCount =>
    have hreport : s.tests = s'.tests := h
    simp only [read?, hreport]
  | lineCoverage | branchCoverage =>
    have hreport : s.coverage = s'.coverage := h
    simp only [read?, hreport]
  | documentedShare =>
    have hreport : s.documentation = s'.documentation := h
    simp only [read?, hreport]

end Metric

/-- The category of each rule that has one of its own. -/
def Category.ofRules : List (String × Category) :=
  [(Rule.Lint.rule.name, lint), (Rule.Build.rule.name, build),
    (Rule.Audit.rule.name, dependencyAudit), (Rule.Tests.rule.name, tests),
    (Rule.Coverage.rule.name, coverage), (Rule.Readme.rule.name, documentation),
    (Rule.ApiDocs.rule.name, documentation), (Rule.ProjectFiles.rule.name, documentation)]

/-- The category that the rule of a name judges by under some parameters. -/
def Category.ofRule? (rule : String) (params : Params) : Option Category :=
  if rule = Rule.MetricThreshold.rule.name then
    (Rule.MetricThreshold.rule.read params).toOption.map (·.metric.report)
  else ofRules.lookup rule

/-- The category that a criterion is judged by for a language. -/
def Criterion.category? (c : Criterion) (language : String) : Option Category :=
  Category.ofRule? c.rule (c.effectiveParams language)

theorem Criterion.category?_normal (c : Criterion) (language : String) :
    c.category? (Text.normal language) = c.category? language := by
  unfold category?
  rw [effectiveParams_normal]

/-! ### What rules read -/

/-- The rule decides the same by all snapshots that have the same report of the category. -/
def TypedRule.ReadsOnly {π : Type} (r : TypedRule π) (category : π → Category) : Prop :=
  ∀ c s s' p, (category p).Same s s' → r.decide c s p = r.decide c s' p

/-- A rule that has a category under all parameters that it takes, and judges by it only. -/
structure Rule.Local (r : Rule) : Prop where
  exists_category : ∀ params, r.validate params = .ok () →
    ∃ k, Category.ofRule? r.name params = some k
  judge : ∀ c s s' params, (∀ k, Category.ofRule? r.name params = some k → k.Same s s') →
    r.validate params = .ok () → r.judge c s params = r.judge c s' params

/-- It is enough that a rule decides by the category that is known of it. -/
theorem TypedRule.ReadsOnly.toRule {π : Type} {r : TypedRule π} {category : π → Category}
    (h : r.ReadsOnly category)
    (hcategory : ∀ params p, r.read params = .ok p →
      Category.ofRule? r.name params = some (category p)) : r.toRule.Local where
  exists_category := by
    intro params hvalid
    obtain ⟨p, -, hread, -⟩ := exists_accept hvalid
    exact ⟨category p, hcategory params p hread⟩
  judge := by
    intro c s s' params hsame hvalid
    obtain ⟨p, haccept, hread, -⟩ := exists_accept hvalid
    have hreport : (category p).Same s s' := hsame _ (hcategory params p hread)
    calc r.toRule.judge c s params = .ok (r.decide c s p) := by
          simp only [TypedRule.toRule, haccept]
      _ = .ok (r.decide c s' p) := by rw [h c s s' p hreport]
      _ = r.toRule.judge c s' params := by simp only [TypedRule.toRule, haccept]

namespace Rule

theorem Lint.readsOnly : Lint.rule.ReadsOnly fun _ => .lint := by
  intro c s s' p h
  change Lint.decide c s p = Lint.decide c s' p
  have hreport : s.lint = s'.lint := h
  unfold Lint.decide
  rw [hreport]

theorem Build.readsOnly : Build.rule.ReadsOnly fun _ => .build := by
  intro c s s' p h
  change Build.decide c s p = Build.decide c s' p
  have hreport : s.build = s'.build := h
  unfold Build.decide
  rw [hreport]

theorem Audit.readsOnly : Audit.rule.ReadsOnly fun _ => .dependencyAudit := by
  intro c s s' p h
  change Audit.decide c s p = Audit.decide c s' p
  have hreport : s.dependencyAudit = s'.dependencyAudit := h
  unfold Audit.decide
  rw [hreport]

theorem Tests.readsOnly : Tests.rule.ReadsOnly fun _ => .tests := by
  intro c s s' p h
  change Tests.decide c s p = Tests.decide c s' p
  have hreport : s.tests = s'.tests := h
  unfold Tests.decide
  rw [hreport]

theorem Coverage.readsOnly : Coverage.rule.ReadsOnly fun _ => .coverage := by
  intro c s s' p h
  change Coverage.decide c s p = Coverage.decide c s' p
  have hreport : s.coverage = s'.coverage := h
  unfold Coverage.decide
  rw [hreport]

theorem Readme.readsOnly : Readme.rule.ReadsOnly fun _ => .documentation := by
  intro c s s' p h
  change Readme.decide c s p = Readme.decide c s' p
  have hreport : s.documentation = s'.documentation := h
  unfold Readme.decide
  rw [hreport]

theorem ApiDocs.readsOnly : ApiDocs.rule.ReadsOnly fun _ => .documentation := by
  intro c s s' p h
  change ApiDocs.decide c s p = ApiDocs.decide c s' p
  have hreport : s.documentation = s'.documentation := h
  unfold ApiDocs.decide
  rw [hreport]

theorem ProjectFiles.readsOnly : ProjectFiles.rule.ReadsOnly fun _ => .documentation := by
  intro c s s' p h
  change ProjectFiles.decide c s p = ProjectFiles.decide c s' p
  have hreport : s.documentation = s'.documentation := h
  unfold ProjectFiles.decide
  rw [hreport]

theorem MetricThreshold.readsOnly : MetricThreshold.rule.ReadsOnly (·.metric.report) := by
  intro c s s' p h
  change MetricThreshold.decide c s p = MetricThreshold.decide c s' p
  unfold MetricThreshold.decide
  rw [Metric.read?_congr h]

/-- The rules that every rubric can use judge by one report each. -/
theorem local_of_mem_builtinRules {rule : Rule} (h : rule ∈ Registry.builtinRules) :
    rule.Local := by
  -- The rules are gone through one by one, each with its category.
  have hall : ∀ rule ∈ Registry.builtinRules, rule.Local := by
    unfold Registry.builtinRules
    simp only [List.forall_mem_cons, List.not_mem_nil, false_implies, implies_true, and_true]
    refine ⟨Lint.readsOnly.toRule ?_, Build.readsOnly.toRule ?_, Audit.readsOnly.toRule ?_,
      Tests.readsOnly.toRule ?_, Coverage.readsOnly.toRule ?_, Readme.readsOnly.toRule ?_,
      ApiDocs.readsOnly.toRule ?_, ProjectFiles.readsOnly.toRule ?_,
      MetricThreshold.readsOnly.toRule ?_⟩
    -- For a rule with a category of its own the parameters do not matter.
    any_goals exact fun _ _ _ => rfl
    intro params p hread
    unfold Category.ofRule?
    rw [if_pos rfl, hread]
    rfl
  exact hall rule h

end Rule

/-! ### Criteria -/

/-- A valid criterion has a category for every language. -/
theorem Criterion.Valid.exists_category {c : Criterion} (h : c.Valid .builtin)
    (language : String) : ∃ k, c.category? language = some k := by
  obtain ⟨rule, hrule, haccepts⟩ := h.rule
  -- The rule is found under the name that the criterion gives.
  obtain ⟨hmem, hname⟩ := Registry.mem_builtinRules hrule
  have hcategory := (Rule.local_of_mem_builtinRules hmem).exists_category
    (c.effectiveParams language) (haccepts.effectiveParams language)
  rwa [hname] at hcategory

namespace Evaluator

variable {e e' : Evaluator} {r r' : Rubric} {s s' : Snapshot} {language language' : String}
  {c : Criterion} {v : Verdict} {ds : List Decided}

/-- A criterion is decided by at most one verdict. -/
theorem Decides.unique {v' : Verdict} (h : e.Decides s language c v)
    (h' : e.Decides s language c v') : v = v' := by
  obtain ⟨rule, hrule, hjudge, -⟩ := h
  obtain ⟨rule', hrule', hjudge', -⟩ := h'
  cases hrule.symm.trans hrule'
  exact Except.ok.inj (hjudge.symm.trans hjudge')

/-- The verdict on a criterion is the same for two snapshots that have the same report of its
category. -/
theorem decides_congr (he : e.registry = .builtin) (he' : e'.registry = .builtin)
    (hc : c.Valid .builtin) (hsame : ∀ k, c.category? language = some k → k.Same s s')
    (h : e.Decides s language c v) : e'.Decides s' language c v := by
  obtain ⟨rule, hrule, hjudge, hcheck⟩ := h
  rw [he] at hrule
  obtain ⟨hmem, hname⟩ := Registry.mem_builtinRules hrule
  -- A valid criterion has parameters that its rule takes for every language.
  have hvalid : rule.validate (c.effectiveParams language) = .ok () := by
    obtain ⟨rule', hrule', haccepts⟩ := hc.rule
    cases hrule.symm.trans hrule'
    exact haccepts.effectiveParams language
  have hreports : ∀ k, Category.ofRule? rule.name (c.effectiveParams language) = some k →
      k.Same s s' := by
    rw [hname]
    exact hsame
  refine ⟨rule, by rw [he', hrule], ?_, hcheck⟩
  rw [← hjudge]
  exact ((Rule.local_of_mem_builtinRules hmem).judge _ s s' _ hreports hvalid).symm

end Evaluator

/-! ### Evaluations -/

/-- What an evaluation of a rubric gives a criterion: an outcome and the items it refers to. -/
structure Evaluation.Gives (ev : Evaluation) (r : Rubric) (c : Criterion) (o : CriterionOutcome)
    (items : List Evidence) : Prop where
  /-- The outcome stands where the criterion stands. -/
  place : ∀ i : Nat, r.criteria[i]? = some c → ev.outcome.criteria[i]? = some o
  id : o.criterionId = c.id
  /-- There are no other items for the criterion. -/
  only : ev.evidence.filter (·.criterionId = c.id) = items
  refers : o.evidenceIds = items.map (·.id)

namespace Evaluator

variable {e e' : Evaluator} {r r' : Rubric} {s s' : Snapshot} {language language' : String}
  {c : Criterion} {v : Verdict} {ds : List Decided}

/-- What has been settled gives a criterion what its verdict means for it. -/
theorem Settles.gives (h : e.Settles r s language ds) (hc : c ∈ r.criteria)
    (hv : e.Decides s (Text.normal language) c v) :
    (assemble r ds).Gives r c (accept c v).outcome (accept c v).evidence := by
  -- No item belongs to two criteria, as their ids are different.
  have hall := DecidesAll.filter_items h.decided h.valid.distinct [] fun _ hmem =>
    absurd hmem List.not_mem_nil
  -- At every place of the criterion stands what its one verdict means.
  have hplace : ∀ i : Nat, r.criteria[i]? = some c → ds[i]? = some (accept c v) ∧
      (ds.flatMap (·.evidence)).filter (·.criterionId = c.id) = (accept c v).evidence := by
    intro i hi
    obtain ⟨hlt, hget⟩ := List.getElem?_eq_some_iff.1 hi
    have hlt' : i < ds.length := hall.length_eq ▸ hlt
    obtain ⟨⟨v', hv', haccept⟩, hfilter⟩ := hall.get hlt hlt'
    simp only [List.get_eq_getElem, hget] at hv' haccept hfilter
    -- The verdict at this place is the one given.
    cases hv.unique hv'
    exact ⟨List.getElem?_eq_some_iff.2 ⟨hlt', haccept⟩, haccept ▸ hfilter⟩
  obtain ⟨i, hi⟩ := List.getElem?_of_mem hc
  refine ⟨?_, rfl, (hplace i hi).2, rfl⟩
  intro i hi
  change (ds.map (·.outcome))[i]? = _
  rw [List.getElem?_map, (hplace i hi).1]
  rfl

/-- Two evaluations by the rules that every rubric can use say the same of a criterion that both
rubrics have, if the snapshots have the same report of its category and the languages have the same
normal form. The rubrics may have any other criteria, and the snapshots any other reports. -/
theorem evaluate_local (he : e.registry = .builtin) (he' : e'.registry = .builtin)
    (hr : r.issues .builtin = []) (hr' : r'.issues .builtin = [])
    (hs : s.flaw? = none) (hs' : s'.flaw? = none) (hc : c ∈ r.criteria) (hc' : c ∈ r'.criteria)
    (hlanguage : Text.normal language = Text.normal language')
    (hsame : ∀ k, c.category? language = some k → k.Same s s') (j j' : Journal) :
    ∃ ev ev' o items, (e.evaluate r s language).result j = .ok ev ∧
      (e'.evaluate r' s' language').result j' = .ok ev' ∧
      ev.Gives r c o items ∧ ev'.Gives r' c o items := by
  have hhonest {e : Evaluator} (he : e.registry = .builtin) (name : String) (rule : Rule)
      (hrule : e.registry.get? name = some rule) : rule.Honest := by
    rw [he] at hrule
    exact Registry.honest_of_builtin hrule
  have hvalid : r.Valid .builtin := Rubric.issues_eq_nil_iff.1 hr
  have hvalid' : r'.Valid .builtin := Rubric.issues_eq_nil_iff.1 hr'
  obtain ⟨ds, hds⟩ := exists_settles (e := e) language (he ▸ hvalid) hs (hhonest he)
  obtain ⟨ds', hds'⟩ := exists_settles (e := e') language' (he' ▸ hvalid') hs' (hhonest he')
  -- The verdict of the first evaluation is that of the second one as well.
  have hcvalid : c.Valid .builtin := hvalid.criteria c hc
  have hdecides : ∃ v, e.Decides s (Text.normal language) c v :=
    exists_decides (he ▸ hcvalid) (hhonest he c.rule)
  obtain ⟨v, hv⟩ := hdecides
  have hv' : e'.Decides s' (Text.normal language') c v := by
    refine decides_congr he he' hcvalid ?_ (hlanguage ▸ hv)
    rw [← hlanguage, Criterion.category?_normal]
    exact hsame
  exact ⟨assemble r ds, assemble r' ds', (accept c v).outcome, (accept c v).evidence,
    evaluate_eq_ok_iff.2 ⟨ds, hds, rfl⟩, evaluate_eq_ok_iff.2 ⟨ds', hds', rfl⟩,
    hds.gives hc hv, hds'.gives hc' hv'⟩

end Evaluator

/-! ### A shared criterion -/

/-- A criterion on lint errors, but for one language on tests. -/
private def Criterion.shifting : Criterion where
  id := "shifting"
  dimension := .testing
  maxPoints := 60
  rule := "metric_threshold"
  description := none
  params := .ofList [("metric", .str "lint.error_count"), ("met", .ofFloat 5)]
  overrides := .ofList
    [("rust", .ofList [("metric", .str "tests.pass_rate"), ("met", .ofFloat 0.5)])]

/-- A criterion for the rest of the points. -/
private def Criterion.filler (id rule : String) (dimension : Dimension) : Criterion :=
  ⟨id, dimension, 40, rule, none, .empty, .empty⟩

/-- The criterion in front of another one. -/
private def Rubric.shiftingFirst : Rubric :=
  ⟨"1", .empty, [.shifting, .filler "builds" "build_success" .codeQuality], []⟩

/-- The criterion behind another one. -/
private def Rubric.shiftingLast : Rubric :=
  ⟨"2", .empty, [.filler "lint" "lint_issues" .codeQuality, .shifting], []⟩

/-- Tests of which one in four fails, in a project that builds. -/
private def Snapshot.building : Snapshot :=
  ⟨"Rust", none, some ⟨"cargo", true, 0, none⟩, none, some ⟨"nextest", 4, 3, 1, 0⟩, none, none⟩

/-- The same tests, in a project that has been looked at for lint. -/
private def Snapshot.linted : Snapshot :=
  ⟨"Go", some ⟨"clippy", 7, 2, []⟩, none, none, some ⟨"nextest", 4, 3, 1, 0⟩, none, none⟩

/-- The criterion is judged the same in both rubrics, by the tests. -/
theorem Evaluator.evaluate_local_shifting :
    let e := ofRegistry .builtin
    let c := Criterion.shifting
    ((Rubric.shiftingFirst.issues .builtin = [] ∧ Rubric.shiftingLast.issues .builtin = []) ∧
      (Snapshot.building.flaw? = none ∧ Snapshot.linted.flaw? = none) ∧
      (c ∈ Rubric.shiftingFirst.criteria ∧ c ∈ Rubric.shiftingLast.criteria) ∧
      Text.normal "rust" = Text.normal " RUST " ∧ c.category? "rust" = some .tests) ∧
    ∃ ev ev' o items,
      (e.evaluate .shiftingFirst .building "rust").result .empty = .ok ev ∧
      ((e.withWorkers 1).evaluate .shiftingLast .linted " RUST ").result .empty = .ok ev' ∧
      ev.Gives .shiftingFirst c o items ∧ ev'.Gives .shiftingLast c o items := by
  intro e c
  have hr : Rubric.shiftingFirst.issues .builtin = [] := by decide +kernel
  have hr' : Rubric.shiftingLast.issues .builtin = [] := by decide +kernel
  have hs : Snapshot.building.flaw? = none := by decide +kernel
  have hs' : Snapshot.linted.flaw? = none := by decide +kernel
  have hc : c ∈ Rubric.shiftingFirst.criteria := List.mem_cons_self
  have hc' : c ∈ Rubric.shiftingLast.criteria := List.mem_cons_of_mem _ List.mem_cons_self
  have hlanguage : Text.normal "rust" = Text.normal " RUST " := by decide +kernel
  have hcategory : c.category? "rust" = some .tests := by decide +kernel
  have hsame : ∀ k, c.category? "rust" = some k → k.Same .building .linted := by
    intro k hk
    cases hk.symm.trans hcategory
    rfl
  exact ⟨⟨⟨hr, hr'⟩, ⟨hs, hs'⟩, ⟨hc, hc'⟩, hlanguage, hcategory⟩,
    evaluate_local rfl rfl hr hr' hs hs' hc hc' hlanguage hsame .empty .empty⟩

end Scorecard
