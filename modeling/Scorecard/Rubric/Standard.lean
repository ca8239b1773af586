import Scorecard.Rubric.Load

/-!
# The standard rubric

Eight criteria over the three dimensions, with milder parameters for some languages.
-/

namespace Scorecard.Rubric.Standard

/-- A number of a rule's parameters. -/
def real (x : Float) : Json := .num (.real x)

/-- Lint issues. -/
def lintClean : Criterion where
  id := "lint_clean"
  dimension := .codeQuality
  maxPoints := 15
  rule := "lint_issues"
  description := some "Linter reports no issues (partial credit for a handful)"
  params := .ofList [("max_issues", .ofNat 0), ("partial_max_issues", .ofNat 10)]
  overrides := .ofList [
    ("javascript", .ofList [("max_issues", .ofNat 5), ("partial_max_issues", .ofNat 30)]),
    ("python", .ofList [("partial_max_issues", .ofNat 25)])]

/-- The build. -/
def buildPasses : Criterion where
  id := "build_passes"
  dimension := .codeQuality
  maxPoints := 15
  rule := "build_success"
  description := some "Project builds; few warnings"
  params := .ofList [("max_warnings", .ofNat 0), ("partial_max_warnings", .ofNat 20)]
  overrides := .empty

/-- Vulnerable dependencies. -/
def dependenciesSecure : Criterion where
  id := "dependencies_secure"
  dimension := .codeQuality
  maxPoints := 10
  rule := "dependency_audit"
  description := some "No high or critical dependency vulnerabilities"
  params := .ofList [("fail_on", .str "high"), ("partial_on", .str "medium")]
  overrides := .empty

/-- Tests. -/
def testsPass : Criterion where
  id := "tests_pass"
  dimension := .testing
  maxPoints := 20
  rule := "test_pass_rate"
  description := some "All collected tests pass"
  params := .ofList [
    ("min_pass_rate", real 1),
    ("min_tests", .ofNat 1),
    ("partial_min_pass_rate", real 0.8)]
  overrides := .empty

/-- Coverage. -/
def coverage : Criterion where
  id := "coverage"
  dimension := .testing
  maxPoints := 15
  rule := "coverage_threshold"
  description := some "Line coverage meets the target"
  params := .ofList [("min_percent", real 80), ("partial_min_percent", real 50)]
  overrides := .ofList [("python", .ofList [("min_percent", real 75)])]

/-- The README. -/
def readme : Criterion where
  id := "readme"
  dimension := .documentation
  maxPoints := 10
  rule := "readme_sections"
  description := some "README explains installation and usage"
  params := .ofList [
    ("partial_min_sections", .ofNat 1),
    ("required_sections", .arr [.str "installation", .str "usage"])]
  overrides := .empty

/-- Documented items. -/
def apiDocs : Criterion where
  id := "api_docs"
  dimension := .documentation
  maxPoints := 10
  rule := "api_doc_coverage"
  description := some "Public items carry doc comments"
  params := .ofList [("min_ratio", real 0.8), ("partial_min_ratio", real 0.5)]
  overrides := .ofList [
    ("javascript", .ofList [("min_ratio", real 0.6), ("partial_min_ratio", real 0.3)])]

/-- Project files. -/
def projectFiles : Criterion where
  id := "project_files"
  dimension := .documentation
  maxPoints := 5
  rule := "project_files"
  description := some "LICENSE and CONTRIBUTING are present"
  params := .ofList [
    ("partial_min_present", .ofNat 1),
    ("required", .arr [.str "license", .str "contributing"])]
  overrides := .empty

end Scorecard.Rubric.Standard

namespace Scorecard.Rubric

/-- The standard rubric. -/
def standard : Rubric where
  version := "1"
  declaredWeights := .ofList [("code_quality", 40), ("documentation", 25), ("testing", 35)]
  criteria := [Standard.lintClean, Standard.buildPasses, Standard.dependenciesSecure,
    Standard.testsPass, Standard.coverage, Standard.readme, Standard.apiDocs,
    Standard.projectFiles]
  danglingOverrides := []

/-- Loads the standard rubric. -/
def loadStandard : Attempt RubricError Rubric := checked .builtin standard

end Scorecard.Rubric
