import Scorecard.Proofs.Threshold
import Scorecard.Proofs.Verdict

/-!
# Better measurements

A rule with a category of its own judges by one report of a snapshot, and each of its tests is
passed by every report that is at least as good as one that passes it. So the status is never worse
where the report is at least as good, whatever other reports the snapshots have. A category without
a report is no better than one with any report.

* `Snapshot.Improves`: what it is for a snapshot to be at least as good, for each rule.
* `TypedRule.JudgesBy`: the rule judges by one report.
* `Rule.judge_mono`: better measurements never have a worse status.
-/

namespace Scorecard

/-! ### Reports that are at least as good -/

/-- The second linter reports no more errors and no more warnings. -/
structure LintReport.Improves (r r' : LintReport) : Prop where
  errors : r'.errorCount ≤ r.errorCount
  warnings : r'.warningCount ≤ r.warningCount

/-- A build that succeeds still succeeds, with no more warnings. -/
structure BuildReport.Improves (r r' : BuildReport) : Prop where
  success : r.success = true → r'.success = true
  warnings : r.success = true → r'.warningCount ≤ r.warningCount

/-- No level has more vulnerabilities, and there are few enough at first to be added up. -/
structure AuditReport.Improves (r r' : AuditReport) : Prop where
  critical : r'.critical ≤ r.critical
  high : r'.high ≤ r.high
  medium : r'.medium ≤ r.medium
  low : r'.low ≤ r.low
  fits : r.critical.toNat + r.high.toNat + r.medium.toNat + r.low.toNat < UInt64.size

/-- There are as many tests, and no fewer pass. -/
structure TestReport.Improves (r r' : TestReport) : Prop where
  total : r'.total = r.total
  passed : r.passed ≤ r'.passed

/-- No fewer lines are reached. -/
def CoverageReport.Improves (r r' : CoverageReport) : Prop := r.linePercent ≤ r'.linePercent

namespace DocumentationReport

/-- A README is kept with all its headings. -/
structure ImprovesReadme (r r' : DocumentationReport) : Prop where
  present : r.readmePresent = true → r'.readmePresent = true
  sections : r.readmePresent = true → r.readmeSections ⊆ r'.readmeSections

/-- There are as many public items, and no fewer are documented. -/
structure ImprovesItems (r r' : DocumentationReport) : Prop where
  total : r'.totalItems = r.totalItems
  documented : r.documentedItems ≤ r'.documentedItems

/-- All project files are kept. -/
structure ImprovesFiles (r r' : DocumentationReport) : Prop where
  license : r.hasLicense = true → r'.hasLicense = true
  contributing : r.hasContributing = true → r'.hasContributing = true
  changelog : r.hasChangelog = true → r'.hasChangelog = true

end DocumentationReport

/-- A report is followed by one that is at least as good; where there is none, anything follows. -/
def Follows {ρ : Type} (improves : ρ → ρ → Prop) (o o' : Option ρ) : Prop :=
  ∀ r ∈ o, ∃ r' ∈ o', improves r r'

/-- The second snapshot is at least as good in the category of the rule. -/
inductive Snapshot.Improves : Rule → Snapshot → Snapshot → Prop
  | lint {s s' : Snapshot} (h : Follows LintReport.Improves s.lint s'.lint) :
      Improves Rule.Lint.rule.toRule s s'
  | build {s s' : Snapshot} (h : Follows BuildReport.Improves s.build s'.build) :
      Improves Rule.Build.rule.toRule s s'
  | audit {s s' : Snapshot}
      (h : Follows AuditReport.Improves s.dependencyAudit s'.dependencyAudit) :
      Improves Rule.Audit.rule.toRule s s'
  | tests {s s' : Snapshot} (h : Follows TestReport.Improves s.tests s'.tests) :
      Improves Rule.Tests.rule.toRule s s'
  | coverage {s s' : Snapshot} (h : Follows CoverageReport.Improves s.coverage s'.coverage) :
      Improves Rule.Coverage.rule.toRule s s'
  | readme {s s' : Snapshot}
      (h : Follows DocumentationReport.ImprovesReadme s.documentation s'.documentation) :
      Improves Rule.Readme.rule.toRule s s'
  | apiDocs {s s' : Snapshot}
      (h : Follows DocumentationReport.ImprovesItems s.documentation s'.documentation) :
      Improves Rule.ApiDocs.rule.toRule s s'
  | projectFiles {s s' : Snapshot}
      (h : Follows DocumentationReport.ImprovesFiles s.documentation s'.documentation) :
      Improves Rule.ProjectFiles.rule.toRule s s'

/-! ### Counts -/

/-- A count that is no greater is within every limit that the greater one is within. -/
private theorem decide_le_of_le {m n limit : UInt64} (h : m ≤ n)
    (hn : decide (n ≤ limit) = true) : decide (m ≤ limit) = true :=
  decide_eq_true (UInt64.le_trans h (of_decide_eq_true hn))

theorem toNat_cappedSum (a b : UInt64) :
    (cappedSum a b).toNat = min (a.toNat + b.toNat) (UInt64.size - 1) := by
  unfold cappedSum
  -- The test for an overflow is made on the exact sum.
  split
  · next h =>
    rw [UInt64.toNat_add, Nat.mod_eq_of_lt h]
    omega
  · next h =>
    have hgreatest : (0xFFFFFFFFFFFFFFFF : UInt64).toNat = UInt64.size - 1 := rfl
    rw [hgreatest]
    omega

theorem cappedSum_mono {a a' b b' : UInt64} (ha : a ≤ a') (hb : b ≤ b') :
    cappedSum a b ≤ cappedSum a' b' := by
  rw [UInt64.le_iff_toNat_le] at ha hb ⊢
  rw [toNat_cappedSum, toNat_cappedSum]
  omega

theorem le_cappedSum_left (a b : UInt64) : a ≤ cappedSum a b := by
  rw [UInt64.le_iff_toNat_le, toNat_cappedSum]
  exact le_min (Nat.le_add_right _ _) (Nat.le_sub_one_of_lt a.toNat_lt)

/-- There are no more tests that pass than tests. -/
theorem TestReport.passed_le_total {r : TestReport} (h : r.flaw? = none) : r.passed ≤ r.total := by
  have haccounted : r.accounted ≤ r.total := UInt64.not_lt.1 (Option.ite_some_eq_none_iff.1 h).1
  -- The sum that is checked is capped, and capping never goes below a part.
  calc r.passed ≤ cappedSum r.passed r.failed := le_cappedSum_left _ _
    _ ≤ r.accounted := le_cappedSum_left _ _
    _ ≤ r.total := haccounted

theorem DocumentationReport.documentedItems_le_totalItems {r : DocumentationReport}
    (h : r.flaw? = none) : r.documentedItems ≤ r.totalItems :=
  UInt64.not_lt.1 (Option.ite_some_eq_none_iff.1 h).1

/-- Counts that are few enough are added up exactly. -/
theorem toNat_foldl_add {xs : List UInt64} {start : UInt64}
    (h : start.toNat + (xs.map UInt64.toNat).sum < UInt64.size) :
    (xs.foldl (· + ·) start).toNat = start.toNat + (xs.map UInt64.toNat).sum := by
  induction xs generalizing start with
  | nil => rfl
  | cons x xs ih =>
    rw [List.map_cons, List.sum_cons, ← add_assoc] at h ⊢
    -- No sum on the way is greater than the last one.
    have hnext : (start + x).toNat = start.toNat + x.toNat := by
      rw [UInt64.toNat_add, Nat.mod_eq_of_lt]
      exact (Nat.le_add_right _ _).trans_lt h
    rw [List.foldl_cons, ih (by rwa [hnext]), hnext]

namespace AuditReport

variable {r r' : AuditReport}

/-- The number of vulnerabilities from a level on, added up exactly. -/
def sumFrom (r : AuditReport) (level : Vulnerability) : ℕ :=
  ((Vulnerability.all.filter fun v => level.rank ≤ v.rank).map fun v => (r.ofLevel v).toNat).sum

theorem toNat_countFrom {level : Vulnerability} (h : r.sumFrom level < UInt64.size) :
    (r.countFrom level).toNat = r.sumFrom level := by
  have hmap (vs : List Vulnerability) :
      (vs.map r.ofLevel).map UInt64.toNat = vs.map fun v => (r.ofLevel v).toNat :=
    List.map_map
  unfold sumFrom at h ⊢
  unfold countFrom
  rw [← hmap] at h ⊢
  rw [toNat_foldl_add (by rwa [UInt64.toNat_zero, zero_add]), UInt64.toNat_zero, zero_add]

theorem Improves.ofLevel (h : r.Improves r') (v : Vulnerability) : r'.ofLevel v ≤ r.ofLevel v := by
  cases v with
  | low => exact h.low
  | medium => exact h.medium
  | high => exact h.high
  | critical => exact h.critical

/-- From no level on there are too many vulnerabilities to be added up, if there are few enough at
all levels together. -/
theorem sumFrom_lt_size
    (h : r.critical.toNat + r.high.toNat + r.medium.toNat + r.low.toNat < UInt64.size)
    (level : Vulnerability) : r.sumFrom level < UInt64.size := by
  have hall : r.sumFrom level ≤ (Vulnerability.all.map fun v => (r.ofLevel v).toNat).sum :=
    (List.filter_sublist.map _).sum_le_sum fun _ _ => Nat.zero_le _
  simp only [Vulnerability.all, List.map_cons, List.map_nil, List.sum_cons, List.sum_nil,
    AuditReport.ofLevel] at hall
  omega

/-- From no level on there are more vulnerabilities. -/
theorem Improves.countFrom (h : r.Improves r') (level : Vulnerability) :
    r'.countFrom level ≤ r.countFrom level := by
  have hmono : r'.sumFrom level ≤ r.sumFrom level :=
    List.sum_le_sum fun v _ => UInt64.le_iff_toNat_le.1 (h.ofLevel v)
  have hfits := sumFrom_lt_size h.fits level
  rw [UInt64.le_iff_toNat_le, toNat_countFrom hfits, toNat_countFrom (hmono.trans_lt hfits)]
  exact hmono

end AuditReport

/-! ### Judging by one report -/

namespace TypedRule

variable {π ρ : Type} {r : TypedRule π} {c c' : Criterion.Context} {s s' : Snapshot} {p : π}

/-- The rule judges by one report of a snapshot; without it, nothing is met. -/
def JudgesBy (r : TypedRule π) (report : Snapshot → Option ρ) (status : ρ → π → Status) : Prop :=
  ∀ c s p, (r.decide c s p).status = ((report s).map (status · p)).getD .unmet

theorem JudgesBy.mono {report : Snapshot → Option ρ} {status : ρ → π → Status}
    {improves : ρ → ρ → Prop} (h : r.JudgesBy report status)
    (hreports : Follows improves (report s) (report s'))
    (hstatus : ∀ x ∈ report s, ∀ x' ∈ report s', improves x x' → status x p ≤ status x' p) :
    (r.decide c s p).status ≤ (r.decide c' s' p).status := by
  rw [h c s p, h c' s' p]
  -- Without a report the status is the worst, and nothing is asked of the other snapshot.
  cases hreport : report s with
  | none => exact Status.unmet_le _
  | some x =>
    obtain ⟨x', hreport', himproves⟩ := hreports x hreport
    rw [Option.mem_def.1 hreport']
    exact hstatus x hreport x' hreport' himproves

/-- A rule judges as it decides by the parameters that it has taken. -/
theorem judge_mono_of_decide {params : Params} (hparams : r.toRule.validate params = .ok ())
    (h : ∀ p, r.check p = .ok () → (r.decide c s p).status ≤ (r.decide c' s' p).status) :
    ∃ v v', r.toRule.judge c s params = .ok v ∧ r.toRule.judge c' s' params = .ok v' ∧
      v.status ≤ v'.status := by
  obtain ⟨p, haccept, -, hcheck⟩ := exists_accept hparams
  refine ⟨r.decide c s p, r.decide c' s' p, ?_, ?_, h p hcheck⟩
  · simp only [TypedRule.toRule, haccept]
  · simp only [TypedRule.toRule, haccept]

end TypedRule

/-! ### The rules -/

namespace Status

/-- Where all that is found is found again, no fewer of the required things are found. -/
theorem ofTests_filter_mono {α : Type} {required : List α} {found found' : α → Bool}
    {least : Option Nat} (h : ∀ a ∈ required, found a = true → found' a = true) :
    ofTests (required.filter fun a => !found a).isEmpty
        (least.map (· ≤ (required.filter found).length)) ≤
      ofTests (required.filter fun a => !found' a).isEmpty
        (least.map (· ≤ (required.filter found').length)) := by
  refine ofTests_mono (fun hall => ?_) fun n _ hn => ?_
  · -- Where nothing is missing, nothing is missing afterwards.
    rw [List.isEmpty_iff, List.filter_eq_nil_iff] at hall ⊢
    intro a ha
    have hfound : found a = true := by simpa using hall a ha
    simp [h a ha hfound]
  · have hcount : (required.filter found).length ≤ (required.filter found').length := by
      rw [← List.countP_eq_length_filter, ← List.countP_eq_length_filter]
      exact List.countP_mono_left h
    rw [decide_eq_true_iff] at hn ⊢
    exact hn.trans hcount

end Status

namespace Rule

open Status

variable {c c' : Criterion.Context} {s s' : Snapshot}

theorem Lint.judgesBy :
    Lint.rule.JudgesBy Snapshot.lint fun r p =>
      ofTests (counted r p ≤ p.maxIssues) (p.partialMaxIssues.map (counted r p ≤ ·)) := by
  intro c s p
  change (Lint.decide c s p).status = _
  unfold Lint.decide
  cases s.lint with
  | none => rfl
  | some r => rfl

theorem Lint.mono {p : Lint.Limits} (h : Follows LintReport.Improves s.lint s'.lint) :
    (Lint.rule.decide c s p).status ≤ (Lint.rule.decide c' s' p).status := by
  refine judgesBy.mono h fun r _ r' _ hr => ?_
  have hcounted : counted r' p ≤ counted r p := by
    unfold counted
    split
    · exact cappedSum_mono hr.errors hr.warnings
    · exact hr.errors
  exact ofTests_mono (decide_le_of_le hcounted) fun _ _ => decide_le_of_le hcounted

theorem Build.judgesBy : Build.rule.JudgesBy Snapshot.build Build.status := by
  intro c s p
  change (Build.decide c s p).status = _
  unfold Build.decide
  cases s.build with
  | none => rfl
  | some r => rfl

theorem Build.mono {p : Build.Limits} (h : Follows BuildReport.Improves s.build s'.build) :
    (Build.rule.decide c s p).status ≤ (Build.rule.decide c' s' p).status := by
  refine judgesBy.mono h fun r _ r' _ hr => ?_
  unfold Build.status
  -- A build that fails is not met; only one that succeeds has its warnings compared.
  cases hsuccess : r.success with
  | false => exact unmet_le _
  | true =>
    have hwarnings := hr.warnings hsuccess
    rw [if_pos rfl, if_pos (hr.success hsuccess)]
    refine ofTests_mono (fun hmet => ?_) fun _ _ => decide_le_of_le hwarnings
    rw [Option.all_eq_true] at hmet ⊢
    exact fun limit hlimit => decide_le_of_le hwarnings (hmet limit hlimit)

theorem Audit.judgesBy : Audit.rule.JudgesBy Snapshot.dependencyAudit Audit.status := by
  intro c s p
  change (Audit.decide c s p).status = _
  unfold Audit.decide
  cases s.dependencyAudit with
  | none => rfl
  | some r => rfl

theorem Audit.blocking_le {r r' : AuditReport} (h : r.Improves r') (p : Audit.Limits) :
    blocking r' p ≤ blocking r p :=
  h.countFrom p.failOn

theorem Audit.degrading_le {r r' : AuditReport} (h : r.Improves r') (p : Audit.Limits) :
    degrading r' p ≤ degrading r p := by
  unfold degrading
  cases p.partialOn with
  | none => exact UInt64.le_refl _
  | some level => exact h.countFrom level

theorem Audit.mono {p : Audit.Limits}
    (h : Follows AuditReport.Improves s.dependencyAudit s'.dependencyAudit) :
    (Audit.rule.decide c s p).status ≤ (Audit.rule.decide c' s' p).status := by
  refine judgesBy.mono h fun r _ r' _ hr => ?_
  have hblocking := Audit.blocking_le hr p
  have hdegrading := Audit.degrading_le hr p
  -- What is zero stays so.
  unfold Audit.status
  by_cases hblocks : 0 < blocking r p
  · rw [if_pos hblocks]
    exact unmet_le _
  · rw [if_neg hblocks, if_neg (hblocks <| UInt64.lt_of_lt_of_le · hblocking)]
    by_cases hdegrades : 0 < degrading r p
    · rw [if_pos hdegrades]
      split <;> decide
    · rw [if_neg hdegrades, if_neg (hdegrades <| UInt64.lt_of_lt_of_le · hdegrading)]
      exact le_met _

theorem Tests.judgesBy : Tests.rule.JudgesBy Snapshot.tests Tests.status := by
  intro c s p
  change (Tests.decide c s p).status = _
  unfold Tests.decide
  cases s.tests with
  | none => rfl
  | some r => rfl

theorem Tests.mono {p : Tests.Floors} (hs' : s'.Flawless)
    (h : Follows TestReport.Improves s.tests s'.tests) :
    (Tests.rule.decide c s p).status ≤ (Tests.rule.decide c' s' p).status := by
  refine judgesBy.mono h fun r _ r' hmem' hr => ?_
  have hpassed : r'.passed ≤ r'.total := TestReport.passed_le_total (hs'.tests r' hmem')
  unfold Tests.status rate? TestReport.passRate?
  rw [hr.total] at hpassed ⊢
  have hrates := rel_ratio? hr.passed hpassed
  -- As there are as many tests, both rates count or neither does.
  by_cases henough : p.minTests ≤ r.total
  · rw [if_pos henough, if_pos henough]
    generalize ratio? r.passed r.total = rate, ratio? r'.passed r.total = rate' at hrates ⊢
    cases hrates with
    | none => exact unmet_le _
    | some hxy => exact ofTests_atLeast_mono hxy
  · rw [if_neg henough, if_neg henough]
    exact unmet_le _

theorem Coverage.judgesBy :
    Coverage.rule.JudgesBy Snapshot.coverage fun r p =>
      ofTests (atLeast r.linePercent p.minPercent)
        (p.partialMinPercent.map (atLeast r.linePercent ·)) := by
  intro c s p
  change (Coverage.decide c s p).status = _
  unfold Coverage.decide
  cases s.coverage with
  | none => rfl
  | some r => rfl

theorem Coverage.mono {p : Coverage.Floors}
    (h : Follows CoverageReport.Improves s.coverage s'.coverage) :
    (Coverage.rule.decide c s p).status ≤ (Coverage.rule.decide c' s' p).status :=
  judgesBy.mono h fun _ _ _ _ hr => ofTests_atLeast_mono hr

/-- A heading that is added leaves the others. -/
theorem Readme.covers_mono {headings headings' : List String} (h : headings ⊆ headings')
    {name : String} (hcovers : covers headings name = true) : covers headings' name = true := by
  unfold covers at hcovers ⊢
  rw [List.any_eq_true] at hcovers ⊢
  obtain ⟨heading, hmem, hoccurs⟩ := hcovers
  exact ⟨heading, h hmem, hoccurs⟩

theorem Readme.judgesBy :
    Readme.rule.JudgesBy Snapshot.documentation fun r p =>
      if r.readmePresent then Readme.status r p else .unmet := by
  intro c s p
  change (Readme.decide c s p).status = _
  unfold Readme.decide
  cases s.documentation with
  | none => rfl
  | some r =>
    change Verdict.status (if r.readmePresent then _ else _) = if r.readmePresent then _ else _
    rw [apply_ite Verdict.status]
    rfl

theorem Readme.mono {p : Readme.Sections}
    (h : Follows DocumentationReport.ImprovesReadme s.documentation s'.documentation) :
    (Readme.rule.decide c s p).status ≤ (Readme.rule.decide c' s' p).status := by
  refine judgesBy.mono h fun r _ r' _ hr => ?_
  cases hpresent : r.readmePresent with
  | false => exact unmet_le _
  | true =>
    rw [if_pos rfl, if_pos (hr.present hpresent)]
    exact ofTests_filter_mono fun _ _ => covers_mono (hr.sections hpresent)

theorem ApiDocs.judgesBy : ApiDocs.rule.JudgesBy Snapshot.documentation ApiDocs.status := by
  intro c s p
  change (ApiDocs.decide c s p).status = _
  unfold ApiDocs.decide
  cases s.documentation with
  | none => rfl
  | some r => rfl

theorem ApiDocs.mono {p : ApiDocs.Floors} (hs' : s'.Flawless)
    (h : Follows DocumentationReport.ImprovesItems s.documentation s'.documentation) :
    (ApiDocs.rule.decide c s p).status ≤ (ApiDocs.rule.decide c' s' p).status := by
  refine judgesBy.mono h fun r _ r' hmem' hr => ?_
  have hdocumented : r'.documentedItems ≤ r'.totalItems :=
    DocumentationReport.documentedItems_le_totalItems (hs'.documentation r' hmem')
  unfold ApiDocs.status DocumentationReport.ratio?
  rw [hr.total] at hdocumented ⊢
  have hratios := rel_ratio? hr.documented hdocumented
  generalize Scorecard.ratio? r.documentedItems r.totalItems = ratio,
    Scorecard.ratio? r'.documentedItems r.totalItems = ratio' at hratios ⊢
  cases hratios with
  | none =>
    -- There is nothing to document, before or after.
    exact le_met _
  | some hxy => exact ofTests_atLeast_mono hxy

theorem ProjectFiles.judgesBy :
    ProjectFiles.rule.JudgesBy Snapshot.documentation ProjectFiles.status := by
  intro c s p
  change (ProjectFiles.decide c s p).status = _
  unfold ProjectFiles.decide
  cases s.documentation with
  | none => rfl
  | some r => rfl

theorem ProjectFiles.mono {p : ProjectFiles.Wanted}
    (h : Follows DocumentationReport.ImprovesFiles s.documentation s'.documentation) :
    (ProjectFiles.rule.decide c s p).status ≤ (ProjectFiles.rule.decide c' s' p).status := by
  refine judgesBy.mono h fun r _ r' _ hr => ofTests_filter_mono fun file _ hfile => ?_
  cases file with
  | license => exact hr.license hfile
  | contributing => exact hr.contributing hfile
  | changelog => exact hr.changelog hfile

/-- Better measurements never have a worse status: a rule that takes the parameters judges both of
two snapshots, and a valid one that is at least as good as the other in the rule's category has at
least its status, whether or not the other is valid too. -/
theorem judge_mono {rule : Rule} {params : Params} (hparams : rule.validate params = .ok ())
    (hs' : s'.flaw? = none) (h : Snapshot.Improves rule s s') (c c' : Criterion.Context) :
    ∃ v v', rule.judge c s params = .ok v ∧ rule.judge c' s' params = .ok v' ∧
      v.status ≤ v'.status := by
  -- Only what is bounded by a total needs the snapshot to be valid: the tests and the items.
  rw [Snapshot.flaw?_eq_none_iff] at hs'
  cases h with
  | lint h => exact TypedRule.judge_mono_of_decide hparams fun _ _ => Lint.mono h
  | build h => exact TypedRule.judge_mono_of_decide hparams fun _ _ => Build.mono h
  | audit h => exact TypedRule.judge_mono_of_decide hparams fun _ _ => Audit.mono h
  | tests h => exact TypedRule.judge_mono_of_decide hparams fun _ _ => Tests.mono hs' h
  | coverage h => exact TypedRule.judge_mono_of_decide hparams fun _ _ => Coverage.mono h
  | readme h => exact TypedRule.judge_mono_of_decide hparams fun _ _ => Readme.mono h
  | apiDocs h => exact TypedRule.judge_mono_of_decide hparams fun _ _ => ApiDocs.mono hs' h
  | projectFiles h => exact TypedRule.judge_mono_of_decide hparams fun _ _ => ProjectFiles.mono h

/-- A snapshot with four tests. -/
private def fourTests (passed : UInt64) : Snapshot where
  language := "Rust"
  lint := none
  build := none
  dependencyAudit := none
  tests := some ⟨"nextest", 4, passed, 4 - passed, 0⟩
  coverage := none
  documentation := none

/-- Half of the tests are enough for a partial status. -/
private def halfOfTests : Params := .ofList [("partial_min_pass_rate", .ofFloat 0.5)]

/-- A criterion about them. -/
private def passing : Criterion.Context := ⟨"tests-pass", .testing, 10, "Rust"⟩

/-- A second test that passes does not lower the status. -/
theorem judge_mono_fourTests :
    (Tests.rule.toRule.validate halfOfTests = .ok () ∧ (fourTests 1).flaw? = none ∧
      (fourTests 2).flaw? = none ∧
      Snapshot.Improves Tests.rule.toRule (fourTests 1) (fourTests 2)) ∧
    ∃ v v', Tests.rule.toRule.judge passing (fourTests 1) halfOfTests = .ok v ∧
      Tests.rule.toRule.judge passing (fourTests 2) halfOfTests = .ok v' ∧
      v.status ≤ v'.status := by
  have hparams : Tests.rule.toRule.validate halfOfTests = .ok () := by decide +kernel
  have hs : (fourTests 1).flaw? = none := by decide +kernel
  have hs' : (fourTests 2).flaw? = none := by decide +kernel
  have h : Snapshot.Improves Tests.rule.toRule (fourTests 1) (fourTests 2) := by
    refine .tests fun r hr => ⟨_, rfl, ?_⟩
    cases hr
    exact ⟨rfl, by decide⟩
  exact ⟨⟨hparams, hs, hs', h⟩, judge_mono hparams hs' h passing passing⟩

end Rule

end Scorecard
