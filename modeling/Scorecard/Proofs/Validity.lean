import Scorecard.Proofs.Improvement
import Scorecard.Proofs.Lists
import Scorecard.Proofs.Normal

/-!
# What makes a snapshot invalid

A snapshot is looked at condition by condition, and the first one that it breaks is what is said of
it. Shares are in percent as rational numbers. Test results are counted as whole numbers without
bound, with one exception: their sum stops at the greatest count there is, so that a total of so
many tests is never exceeded.

* `Snapshot.Breaks`: the conditions, without the numbers of the machine.
* `TestReport.toNat_accounted`: the sum that stops.
* `Snapshot.reports_first_broken`: the first condition that a snapshot breaks is reported, and only
  a snapshot that breaks none is valid.
-/

namespace Scorecard

open Binary64

/-! ### Conditions -/

/-- What a snapshot is looked at for, in this order. -/
inductive SnapshotCondition
  | language
  | tests
  | lineCoverage
  | branchCoverage
  | documentation

namespace SnapshotCondition

/-- The place in the order. -/
def rank : SnapshotCondition → Nat
  | language => 0
  | tests => 1
  | lineCoverage => 2
  | branchCoverage => 3
  | documentation => 4

/-- All conditions in their order. -/
def all : List SnapshotCondition := [language, tests, lineCoverage, branchCoverage, documentation]

theorem mem_all (x : SnapshotCondition) : x ∈ all := by
  cases x <;> simp [all]

theorem pairwise_all : all.Pairwise fun x y => x.rank < y.rank := by
  decide

end SnapshotCondition

/-- The number is finite, and it lies in percent. -/
def InPercent (x : Float) : Prop := ∃ q : ℚ, Worth x q ∧ 0 ≤ q ∧ q ≤ 100

/-- The snapshot breaks the condition, and the flaw says so. -/
inductive Snapshot.Breaks (s : Snapshot) : SnapshotCondition → SnapshotFlaw → Prop
  /-- The language has no character that is not blank. -/
  | language (h : ∀ c ∈ s.language.toList, Text.isBlank c = true) :
    Breaks s .language .emptyLanguage
  /-- There are more results than tests, and the number of tests is not the greatest count. -/
  | tests {r : TestReport} (hr : s.tests = some r)
    (hmore : r.total.toNat < r.passed.toNat + r.failed.toNat + r.skipped.toNat)
    (hroom : r.total.toNat < 2 ^ 64 - 1) :
    Breaks s .tests (.tooManyResults r.passed r.failed r.skipped r.total)
  | lineCoverage {r : CoverageReport} (hr : s.coverage = some r) (h : ¬ InPercent r.linePercent) :
    Breaks s .lineCoverage (.noPercentage "coverage.line_percent" r.linePercent)
  | branchCoverage {r : CoverageReport} {x : Float} (hr : s.coverage = some r)
    (hx : r.branchPercent = some x) (h : ¬ InPercent x) :
    Breaks s .branchCoverage (.noPercentage "coverage.branch_percent" x)
  | documentation {r : DocumentationReport} (hr : s.documentation = some r)
    (h : r.totalItems.toNat < r.documentedItems.toNat) :
    Breaks s .documentation (.tooManyDocumented r.documentedItems r.totalItems)

/-! ### One condition -/

/-- The sum of the results stops at the greatest count. -/
theorem TestReport.toNat_accounted (r : TestReport) :
    r.accounted.toNat = min (r.passed.toNat + r.failed.toNat + r.skipped.toNat) (2 ^ 64 - 1) := by
  unfold accounted
  -- A sum that has stopped once stays at the greatest count.
  rw [toNat_cappedSum, toNat_cappedSum]
  have hsize : UInt64.size = 2 ^ 64 := rfl
  omega

theorem TestReport.flaw?_eq_some_iff {r : TestReport} {f : SnapshotFlaw} :
    r.flaw? = some f ↔ r.total.toNat < r.passed.toNat + r.failed.toNat + r.skipped.toNat ∧
      r.total.toNat < 2 ^ 64 - 1 ∧ .tooManyResults r.passed r.failed r.skipped r.total = f := by
  unfold flaw?
  rw [Option.ite_none_right_eq_some, UInt64.lt_iff_toNat_lt, toNat_accounted, lt_min_iff,
    Option.some_inj, and_assoc]

theorem DocumentationReport.flaw?_eq_some_iff {r : DocumentationReport} {f : SnapshotFlaw} :
    r.flaw? = some f ↔ r.totalItems.toNat < r.documentedItems.toNat ∧
      .tooManyDocumented r.documentedItems r.totalItems = f := by
  unfold flaw?
  rw [Option.ite_none_right_eq_some, UInt64.lt_iff_toNat_lt, Option.some_inj]

theorem percentageFlaw?_eq_some_iff {field : String} {x : Float} {f : SnapshotFlaw} :
    percentageFlaw? field x = some f ↔ ¬ InPercent x ∧ .noPercentage field x = f := by
  -- The bound is a number of the machine, so that it is worth itself.
  have hsmall : 100 < 2 ^ 53 := by norm_num
  have hpercent : liesWithin 100 x = true ↔ InPercent x := liesWithin_ofNat_iff hsmall
  unfold percentageFlaw?
  rw [Option.ite_none_left_eq_some, hpercent, Option.some_inj]

namespace Snapshot

variable {s : Snapshot} {x : SnapshotCondition} {f : SnapshotFlaw}

/-- What is said of one condition. -/
def check? (s : Snapshot) : SnapshotCondition → Option SnapshotFlaw
  | .language => if Text.isBlankText s.language then some .emptyLanguage else none
  | .tests => s.tests.bind TestReport.flaw?
  | .lineCoverage => s.coverage.bind fun r => percentageFlaw? "coverage.line_percent" r.linePercent
  | .branchCoverage => s.coverage.bind fun r =>
      r.branchPercent.bind (percentageFlaw? "coverage.branch_percent")
  | .documentation => s.documentation.bind DocumentationReport.flaw?

/-- Something is said of a condition if and only if the snapshot breaks it. -/
theorem check?_eq_some_iff : s.check? x = some f ↔ s.Breaks x f := by
  constructor
  · intro h
    cases x with
    | language =>
      obtain ⟨hblank, hf⟩ := Option.ite_none_right_eq_some.1 h
      cases hf
      exact .language (Text.isBlankText_eq_true_iff.1 hblank)
    | tests =>
      obtain ⟨r, hr, hflaw⟩ := Option.bind_eq_some_iff.1 h
      obtain ⟨hmore, hroom, rfl⟩ := TestReport.flaw?_eq_some_iff.1 hflaw
      exact .tests hr hmore hroom
    | lineCoverage =>
      obtain ⟨r, hr, hflaw⟩ := Option.bind_eq_some_iff.1 h
      obtain ⟨hpercent, rfl⟩ := percentageFlaw?_eq_some_iff.1 hflaw
      exact .lineCoverage hr hpercent
    | branchCoverage =>
      obtain ⟨r, hr, hbranch⟩ := Option.bind_eq_some_iff.1 h
      obtain ⟨x, hx, hflaw⟩ := Option.bind_eq_some_iff.1 hbranch
      obtain ⟨hpercent, rfl⟩ := percentageFlaw?_eq_some_iff.1 hflaw
      exact .branchCoverage hr hx hpercent
    | documentation =>
      obtain ⟨r, hr, hflaw⟩ := Option.bind_eq_some_iff.1 h
      obtain ⟨hmore, rfl⟩ := DocumentationReport.flaw?_eq_some_iff.1 hflaw
      exact .documentation hr hmore
  · intro h
    cases h with
    | language h => exact if_pos (Text.isBlankText_eq_true_iff.2 h)
    | tests hr hmore hroom =>
      exact Option.bind_eq_some_iff.2
        ⟨_, hr, TestReport.flaw?_eq_some_iff.2 ⟨hmore, hroom, rfl⟩⟩
    | lineCoverage hr h =>
      exact Option.bind_eq_some_iff.2 ⟨_, hr, percentageFlaw?_eq_some_iff.2 ⟨h, rfl⟩⟩
    | branchCoverage hr hx h =>
      refine Option.bind_eq_some_iff.2 ⟨_, hr, Option.bind_eq_some_iff.2 ⟨_, hx, ?_⟩⟩
      exact percentageFlaw?_eq_some_iff.2 ⟨h, rfl⟩
    | documentation hr h =>
      exact Option.bind_eq_some_iff.2
        ⟨_, hr, DocumentationReport.flaw?_eq_some_iff.2 ⟨h, rfl⟩⟩

theorem check?_eq_none_iff : s.check? x = none ↔ ∀ f, ¬ s.Breaks x f := by
  rw [Option.eq_none_iff_forall_ne_some]
  exact forall_congr' fun f => not_congr check?_eq_some_iff

/-! ### All conditions -/

/-- The conditions are looked at in their order. -/
theorem flaw?_eq_findSome? (s : Snapshot) : s.flaw? = SnapshotCondition.all.findSome? s.check? := by
  -- The two conditions on coverage are looked at together.
  have hcoverage : s.coverage.bind CoverageReport.flaw?
      = (s.check? .lineCoverage).or (s.check? .branchCoverage) := by
    unfold check?
    cases s.coverage with
    | none => rfl
    | some r =>
      simp only [Option.bind_some, CoverageReport.flaw?, Option.orElse_eq_orElse,
        Option.orElse_eq_or]
  unfold flaw? SnapshotCondition.all
  rw [hcoverage]
  simp only [List.findSome?_cons_eq_or, List.findSome?_nil, Option.or_none, Option.orElse_eq_orElse,
    Option.orElse_eq_or, Option.or_assoc]
  rfl

/-- A snapshot has no flaw if and only if it breaks no condition, and otherwise it has the flaw of
the first one that it breaks. -/
theorem reports_first_broken (s : Snapshot) :
    (s.flaw? = none ↔ ∀ x f, ¬ s.Breaks x f) ∧
      ∀ f, s.flaw? = some f ↔ ∃ x, s.Breaks x f ∧ ∀ y f', s.Breaks y f' → x.rank ≤ y.rank := by
  have hascending := SnapshotCondition.pairwise_all
  have hall := SnapshotCondition.mem_all
  rw [flaw?_eq_findSome?]
  refine ⟨?_, fun f => ?_⟩
  · rw [List.findSome?_eq_none_iff]
    exact ⟨fun h x => check?_eq_none_iff.1 (h x (hall x)), fun h x _ => check?_eq_none_iff.2 (h x)⟩
  · rw [List.findSome?_eq_some_iff]
    constructor
    · rintro ⟨front, x, back, hsplit, hx, hfront⟩
      rw [hsplit] at hascending hall
      obtain ⟨-, hback, -⟩ := List.pairwise_append.1 hascending
      refine ⟨x, check?_eq_some_iff.1 hx, fun y f' hy => ?_⟩
      -- A condition in front is not broken, and one behind has a greater rank.
      rcases List.mem_append.1 (hall y) with hmem | hmem
      · exact absurd hy (check?_eq_none_iff.1 (hfront y hmem) f')
      · rcases List.mem_cons.1 hmem with rfl | hmem
        · exact le_refl _
        · exact (List.rel_of_pairwise_cons hback hmem).le
    · rintro ⟨x, hx, hfirst⟩
      obtain ⟨front, back, hsplit⟩ := List.append_of_mem (hall x)
      rw [hsplit] at hascending
      obtain ⟨-, -, hfront⟩ := List.pairwise_append.1 hascending
      refine ⟨front, x, back, hsplit, check?_eq_some_iff.2 hx, fun y hy => ?_⟩
      -- What stands in front has a smaller rank, so that the snapshot does not break it.
      exact check?_eq_none_iff.2 fun f' hf' =>
        absurd (hfirst y f' hf') (Nat.not_le.2 (hfront y hy x List.mem_cons_self))

end Snapshot

/-! ### The greatest count -/

/-- A snapshot with the greatest number of tests, and one result more. -/
private def Snapshot.overfull : Snapshot :=
  ⟨"rust", none, none, none, some ⟨"nextest", 0xFFFFFFFFFFFFFFFF, 0xFFFFFFFFFFFFFFFF, 1, 0⟩, none,
    none⟩

/-- It is valid, although it has more results than tests. -/
theorem Snapshot.flawless_of_overfull :
    Snapshot.overfull.flaw? = none ∧ ∀ r ∈ Snapshot.overfull.tests,
      r.total.toNat < r.passed.toNat + r.failed.toNat + r.skipped.toNat := by
  refine ⟨by decide +kernel, fun r hr => ?_⟩
  cases hr
  decide

end Scorecard
