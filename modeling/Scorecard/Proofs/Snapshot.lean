import Scorecard.Proofs.Restore
import Scorecard.Snapshot.Codec

/-!
# Snapshots are read back

A snapshot is written as a document that names every category, and what is written of a snapshot
without flaws is read back as it was: reports that are there and reports that are not, findings
with and without a place, and every count. The shares of the coverage are the one thing that the
format could lose, as there is no way to write a number that is not finite; they are finite as they
lie in percent.

* `Snapshot.restores_toJson`: a snapshot is restored from what is written of it.
* `Snapshot.ofJson_of_canonical`: reading undoes writing, whatever order the members stand in.
-/

namespace Scorecard

open Decode

variable {s : Snapshot}

/-! ### What can be written -/

theorem liesWithin_eq_true_iff {bound x : Float} :
    liesWithin bound x = true ↔ x.isFinite = true ∧ 0 ≤ x ∧ x ≤ bound := by
  unfold liesWithin
  rw [Bool.and_eq_true, Bool.and_eq_true, decide_eq_true_iff, decide_eq_true_iff, and_assoc]

theorem percentageFlaw?_eq_none_iff {name : String} {x : Float} :
    percentageFlaw? name x = none ↔ liesWithin 100 x = true := by
  unfold percentageFlaw?
  simp

/-- All that is measured in percent lies in percent. -/
theorem CoverageReport.flaw?_eq_none_iff {r : CoverageReport} :
    r.flaw? = none ↔
      liesWithin 100 r.linePercent = true ∧ ∀ x ∈ r.branchPercent, liesWithin 100 x = true := by
  unfold flaw?
  rw [Option.orElse_eq_orElse, Option.orElse_eq_or, Option.or_eq_none_iff,
    Option.bind_eq_none_iff, percentageFlaw?_eq_none_iff]
  simp only [percentageFlaw?_eq_none_iff, Option.mem_def]

/-- The parts of a snapshot without flaws have none. -/
structure Snapshot.Flawless (s : Snapshot) : Prop where
  language : Text.isBlankText s.language = false
  tests : ∀ r ∈ s.tests, r.flaw? = none
  coverage : ∀ r ∈ s.coverage, r.flaw? = none
  documentation : ∀ r ∈ s.documentation, r.flaw? = none

theorem Snapshot.flaw?_eq_none_iff : s.flaw? = none ↔ s.Flawless := by
  unfold flaw?
  -- The parts are looked at in turn, and none of them may have a flaw.
  simp only [Option.orElse_eq_orElse, Option.orElse_eq_or, Option.or_eq_none_iff,
    Option.bind_eq_none_iff, ite_eq_right_iff, reduceCtorEq, imp_false, Bool.not_eq_true]
  exact ⟨fun ⟨h1, h2, h3, h4⟩ => ⟨h1, h2, h3, h4⟩, fun ⟨h1, h2, h3, h4⟩ => ⟨h1, h2, h3, h4⟩⟩

/-! ### Reports -/

theorem FindingSeverity.variantNamed_name (x : FindingSeverity) :
    variantNamed variants x.name = .ok x := by
  cases x with
  | error => rfl
  | warning => rfl
  | info => rfl

section

open Decoder.Restores

/-- A text that may be missing is restored. -/
private theorem restores_string? (o : Option String) :
    (Decode.optional Decode.string).Restores o (.ofOption .str o) :=
  optional (fun _ => ⟨_, rfl⟩) fun s _ => string s

theorem LintFinding.restores_toJson (r : LintFinding) : decode.Restores r r.toJson := by
  have hline : (Decode.optional Decode.word).Restores r.line
      (.ofOption (fun n => .ofNat n.toNat) r.line) :=
    optional (fun _ => ⟨_, rfl⟩) fun n _ => word n
  exact (Record.Restores.make LintFinding.mk
    |>.defaulted "path" (restores_string? r.path) (by simp)
    |>.defaulted "line" hline (by simp)
    |>.defaulted "rule" (restores_string? r.rule) (by simp)
    |>.required "message" (string r.message) (by simp)
    |>.required "severity" (variant r.severity.variantNamed_name) (by simp)).decode
      "LintIssue" false

theorem LintReport.restores_toJson (r : LintReport) : decode.Restores r r.toJson := by
  have hfindings := list fun f (_ : f ∈ r.findings) => f.restores_toJson
  exact (Record.Restores.make LintReport.mk
    |>.required "tool" (string r.tool) (by simp)
    |>.required "error_count" (count r.errorCount) (by simp)
    |>.required "warning_count" (count r.warningCount) (by simp)
    |>.defaulted "issues" hfindings (by simp)).decode "LintReport" false

theorem BuildReport.restores_toJson (r : BuildReport) : decode.Restores r r.toJson :=
  (Record.Restores.make BuildReport.mk
    |>.required "tool" (string r.tool) (by simp)
    |>.required "success" (boolean r.success) (by simp)
    |>.defaulted "warning_count" (count r.warningCount) (by simp)
    |>.defaulted "output_excerpt" (restores_string? r.outputExcerpt) (by simp)).decode
      "BuildReport" false

theorem AuditReport.restores_toJson (r : AuditReport) : decode.Restores r r.toJson :=
  (Record.Restores.make AuditReport.mk
    |>.required "tool" (string r.tool) (by simp)
    |>.defaulted "critical" (count r.critical) (by simp)
    |>.defaulted "high" (count r.high) (by simp)
    |>.defaulted "medium" (count r.medium) (by simp)
    |>.defaulted "low" (count r.low) (by simp)).decode "AuditReport" false

theorem TestReport.restores_toJson (r : TestReport) : decode.Restores r r.toJson :=
  (Record.Restores.make TestReport.mk
    |>.required "framework" (string r.framework) (by simp)
    |>.required "total" (count r.total) (by simp)
    |>.required "passed" (count r.passed) (by simp)
    |>.required "failed" (count r.failed) (by simp)
    |>.defaulted "skipped" (count r.skipped) (by simp)).decode "TestReport" false

/-- The shares are restored as they are finite. -/
theorem CoverageReport.restores_toJson {r : CoverageReport} (h : r.flaw? = none) :
    decode.Restores r r.toJson := by
  obtain ⟨hline, hbranch⟩ := flaw?_eq_none_iff.1 h
  -- A number that is not finite would be written as null.
  have hfinite {x : Float} (hx : liesWithin 100 x = true) : Decode.float.Restores x (.ofFloat x) :=
    float (liesWithin_eq_true_iff.1 hx).1
  have hbranch := optional (fun _ => ⟨_, rfl⟩) fun x hx => hfinite (hbranch x hx)
  exact (Record.Restores.make CoverageReport.mk
    |>.required "tool" (string r.tool) (by simp)
    |>.required "line_percent" (hfinite hline) (by simp)
    |>.defaulted "branch_percent" hbranch (by simp)).decode "CoverageReport" false

theorem DocumentationReport.restores_toJson (r : DocumentationReport) :
    decode.Restores r r.toJson := by
  have hsections := list fun s (_ : s ∈ r.readmeSections) => string s
  exact (Record.Restores.make DocumentationReport.mk
    |>.required "readme_present" (boolean r.readmePresent) (by simp)
    |>.defaulted "readme_sections" hsections (by simp)
    |>.required "documented_items" (count r.documentedItems) (by simp)
    |>.required "total_items" (count r.totalItems) (by simp)
    |>.defaulted "has_license" (boolean r.hasLicense) (by simp)
    |>.defaulted "has_contributing" (boolean r.hasContributing) (by simp)
    |>.defaulted "has_changelog" (boolean r.hasChangelog) (by simp)).decode
      "DocumentationReport" false

end

/-! ### Snapshots -/

namespace Snapshot

/-- A snapshot is restored from what is written of it, as far as its coverage can be written. -/
theorem restores_toJson (h : ∀ r ∈ s.coverage, r.flaw? = none) : decode.Restores s s.toJson := by
  have hlint := fun r (_ : r ∈ s.lint) => r.restores_toJson
  have hbuild := fun r (_ : r ∈ s.build) => r.restores_toJson
  have haudit := fun r (_ : r ∈ s.dependencyAudit) => r.restores_toJson
  have htests := fun r (_ : r ∈ s.tests) => r.restores_toJson
  have hcoverage := fun r (hr : r ∈ s.coverage) => CoverageReport.restores_toJson (h r hr)
  have hdocumentation := fun r (_ : r ∈ s.documentation) => r.restores_toJson
  -- A category is written as null where its report is missing, which no report is read from.
  exact (Record.Restores.make Snapshot.mk
    |>.required "language" (.string s.language) (by simp)
    |>.nullable "lint" hlint (Record.refusesNull _ _ _) (by simp)
    |>.nullable "build" hbuild (Record.refusesNull _ _ _) (by simp)
    |>.nullable "dependency_audit" haudit (Record.refusesNull _ _ _) (by simp)
    |>.nullable "tests" htests (Record.refusesNull _ _ _) (by simp)
    |>.nullable "coverage" hcoverage (Record.refusesNull _ _ _) (by simp)
    |>.nullable "documentation" hdocumentation (Record.refusesNull _ _ _) (by simp)).decode
      "MetricsSnapshot" false

theorem missingKey?_eq_none_iff {members : List (String × Json)} :
    missingKey? members = none ↔ ∀ key ∈ requiredKeys, key ∈ members.map (·.1) := by
  unfold missingKey?
  simp [List.find?_eq_none]

/-- What is written of a snapshot has every category. -/
theorem exists_members_toJson (s : Snapshot) :
    ∃ members, s.toJson = .obj members ∧ ∀ key ∈ requiredKeys, key ∈ members.map (·.1) :=
  ⟨_, rfl, fun _ hkey => hkey⟩

/-- Reading undoes writing: what is written of a snapshot without flaws has every required key, in
canonical form as well, and the snapshot is read back from every document with the same data. -/
theorem ofJson_of_canonical (h : s.flaw? = none) :
    (∃ members, s.toJson.canonical = .obj members ∧
      ∀ key ∈ requiredKeys, key ∈ members.map (·.1)) ∧
    ofJson s.toJson.canonical = .ok s ∧
    ∀ v, v.canonical = s.toJson.canonical → ofJson v = .ok s := by
  obtain ⟨written, hwritten, hrequired⟩ := s.exists_members_toJson
  -- The order of the members does not matter, as a record looks its fields up.
  have hread (v : Json) (hv : v.canonical = s.toJson.canonical) : ofJson v = .ok s := by
    have hdecode : ofTree decode v = .ok s :=
      (restores_toJson (flaw?_eq_none_iff.1 h).coverage).ofTree_eq hv
    -- The required keys are asked for before anything is decoded.
    rw [hwritten] at hv
    obtain ⟨members, rfl, hmembers⟩ := Json.exists_of_canonical_eq_obj hv
    have hkeys : missingKey? members = none := by
      refine missingKey?_eq_none_iff.2 fun key hkey => ?_
      rw [← Json.mem_keys_canonicalMembers, hmembers, Json.mem_keys_canonicalMembers]
      exact hrequired key hkey
    unfold ofJson
    simp only [hkeys, hdecode, h]
  refine ⟨⟨(Json.canonicalMembers written).entries, ?_, fun key hkey => ?_⟩,
    hread _ s.toJson.canonical_canonical, hread⟩
  · rw [hwritten, Json.canonical]
  · exact Json.mem_keys_canonicalMembers.2 (hrequired key hkey)

/-- A snapshot with a report of every kind, findings without a place, and counts as great as they
can be. -/
private def crowded : Snapshot where
  language := "Rust"
  lint := some ⟨"clippy", 1, 0xFFFFFFFFFFFFFFFF,
    [⟨none, none, none, "unused", .warning⟩, ⟨some "src/lib.rs", some 7, none, "bad", .error⟩]⟩
  build := none
  dependencyAudit := some ⟨"audit", 0, 1, 2, 3⟩
  tests := some ⟨"nextest", 3, 1, 1, 1⟩
  coverage := some ⟨"llvm-cov", 87.5, none⟩
  documentation := some ⟨true, ["Usage", "Licence"], 4, 9, true, false, true⟩

/-- A snapshot with several reports, and one category without, is read back. -/
theorem ofJson_of_canonical_crowded :
    crowded.flaw? = none ∧ ofJson crowded.toJson = .ok crowded :=
  have h : crowded.flaw? = none := by decide +kernel
  ⟨h, (ofJson_of_canonical h).2.2 crowded.toJson rfl⟩

end Snapshot

end Scorecard
