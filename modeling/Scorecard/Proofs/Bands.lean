import Scorecard.Proofs.Improvement

/-!
# Bands

A rule takes a measurement of a snapshot and tests it for the status met and, where its parameters
have a threshold for that, for a partial status. What is checked of the parameters is just what
makes the second test relax the first one, whichever way the measurements are ordered. So the
measurements lie in three bands, one above the other, and the middle one is empty where there is no
threshold for it.

* `Scale`, `Scale.band`, `Scale.Splits`: measurements with two tests, and their three bands.
* `TypedRule.OnScale`: the rule takes a measurement and judges by its band.
* `Rule.Measures`: what each of the rules measures, and on which scale.
* `Rule.judges_by_bands`: every rule judges by bands.
-/

namespace Scorecard

/-! ### Scales -/

/-- Measurements with their order, a test for the status met and, where there is a threshold for it,
one for a partial status. -/
structure Scale (α : Type) where
  /-- The second measurement is at least as good. -/
  AtMost : α → α → Prop
  met : α → Bool
  partly? : Option (α → Bool)

namespace Scale

variable {α : Type} {s : Scale α} {x y z : α}

/-- The band that a measurement lies in. -/
def band (s : Scale α) (x : α) : Status := .ofTests (s.met x) (s.partly?.map (· x))

/-- The test for a partial status relaxes the one for met, and the bands lie one above the other
without a gap. -/
structure Splits (s : Scale α) : Prop where
  relaxes : ∀ test ∈ s.partly?, ∀ x, s.met x = true → test x = true
  ordered : ∀ x y, s.AtMost x y → s.band x ≤ s.band y
  contiguous : ∀ x y z, s.AtMost x y → s.AtMost y z → s.band x = s.band z → s.band y = s.band x

theorem band_eq_met_iff : s.band x = .met ↔ s.met x = true := by
  unfold band Status.ofTests
  cases s.met x with
  | true => simp
  | false =>
    rw [if_neg Bool.false_ne_true]
    split <;> simp

theorem band_eq_partly_iff :
    s.band x = .partly ↔ s.met x = false ∧ ∃ test ∈ s.partly?, test x = true := by
  unfold band Status.ofTests
  cases s.met x with
  | true => simp
  | false => simp

/-- It is enough that what is at least as good passes the same tests. -/
theorem splits_of_tests (hrelaxes : ∀ test ∈ s.partly?, ∀ x, s.met x = true → test x = true)
    (hmet : ∀ x y, s.AtMost x y → s.met x = true → s.met y = true)
    (hpartly : ∀ test ∈ s.partly?, ∀ x y, s.AtMost x y → test x = true → test y = true) :
    s.Splits := by
  have hordered (x y : α) (hxy : s.AtMost x y) : s.band x ≤ s.band y :=
    Status.ofTests_mono (hmet x y hxy) fun test htest => hpartly test htest x y hxy
  -- Between two measurements of one band everything is squeezed into it.
  refine ⟨hrelaxes, hordered, fun x y z hxy hyz heq => ?_⟩
  exact Status.le_antisymm (heq ▸ hordered y z hyz) (hordered x y hxy)

namespace Splits

variable (h : s.Splits)

include h

theorem met_of_atMost (hxy : s.AtMost x y) (hx : s.met x = true) : s.met y = true := by
  -- Nothing is above the upper band.
  have hle := h.ordered x y hxy
  rw [band_eq_met_iff.2 hx] at hle
  exact band_eq_met_iff.1 (Status.le_antisymm (Status.le_met _) hle)

theorem partly_of_atMost {test : α → Bool} (htest : test ∈ s.partly?) (hxy : s.AtMost x y)
    (hx : test x = true) : test y = true := by
  -- A measurement in the upper band passes the second test because it relaxes the first one.
  cases hmet : s.met x with
  | true => exact h.relaxes test htest y (h.met_of_atMost hxy hmet)
  | false =>
    have hle := h.ordered x y hxy
    rw [band_eq_partly_iff.2 ⟨hmet, test, htest, hx⟩] at hle
    -- The second band is no worse than the middle one.
    cases hband : s.band y with
    | met => exact h.relaxes test htest y (band_eq_met_iff.1 hband)
    | partly =>
      obtain ⟨-, test', htest', hy⟩ := band_eq_partly_iff.1 hband
      cases Option.mem_unique htest htest'
      exact hy
    | unmet =>
      rw [hband] at hle
      exact absurd hle (by decide)

end Splits

/-! ### Kinds of scales -/

/-- Counts with a limit, if there is one. -/
def capped (limit partialLimit : Option UInt64) : Scale UInt64 where
  AtMost m n := n ≤ m
  met n := limit.all (n ≤ ·)
  partly? := partialLimit.map fun q n => n ≤ q

theorem splits_capped {limit partialLimit : Option UInt64}
    (h : ∀ q ∈ partialLimit, ∃ l ∈ limit, l ≤ q) :
    (capped limit partialLimit).Splits := by
  refine splits_of_tests ?_ ?_ ?_
  -- A limit for a partial status is only accepted with a limit for met that is no greater.
  · intro test htest n hn
    obtain ⟨q, hq, rfl⟩ := Option.mem_map.1 htest
    obtain ⟨l, hl, hle⟩ := h q hq
    have hmet := of_decide_eq_true ((Option.all_eq_true _ _).1 hn l hl)
    exact decide_eq_true (UInt64.le_trans hmet hle)
  · intro m n hnm hm
    refine (Option.all_eq_true _ _).2 fun l hl => ?_
    have hmet := of_decide_eq_true ((Option.all_eq_true _ _).1 hm l hl)
    exact decide_eq_true (UInt64.le_trans hnm hmet)
  · intro test htest m n hnm hm
    obtain ⟨q, -, rfl⟩ := Option.mem_map.1 htest
    exact decide_eq_true (UInt64.le_trans hnm (of_decide_eq_true hm))

/-- Numbers with a threshold in a direction. -/
def passing (d : Direction) (threshold : Float) (partialThreshold : Option Float) :
    Scale Float where
  AtMost x y :=
    match d with
    | .atLeast => x ≤ y
    | .atMost => y ≤ x
  met x := d.passes x threshold
  partly? := partialThreshold.map fun t x => d.passes x t

theorem splits_passing {d : Direction} {threshold : Float} {partialThreshold : Option Float}
    (h : ∀ t ∈ partialThreshold, Rule.MetricThreshold.noStricter d t threshold = true) :
    (passing d threshold partialThreshold).Splits := by
  refine splits_of_tests ?_ ?_ ?_
  · intro test htest x hx
    obtain ⟨t, ht, rfl⟩ := Option.mem_map.1 htest
    have hle := h t ht
    -- In either direction the laxer threshold is on the other side of the stricter one.
    cases d with
    | atLeast => exact atLeast_of_le (of_decide_eq_true hle) hx
    | atMost => exact atMost_of_le (of_decide_eq_true hle) hx
  · intro x y hxy hx
    cases d with
    | atLeast => exact atLeast_mono hxy hx
    | atMost => exact atMost_mono hxy hx
  · intro test htest x y hxy hx
    obtain ⟨t, -, rfl⟩ := Option.mem_map.1 htest
    cases d with
    | atLeast => exact atLeast_mono hxy hx
    | atMost => exact atMost_mono hxy hx

/-- What is checked of a least number and one for a partial status is enough. -/
theorem splits_of_checkFloors {bound : ℕ} {name partialName : String} {least : Float}
    {partialLeast : Option Float} (hbound : bound < 2 ^ 53)
    (h : checkFloors bound name least partialName partialLeast = .ok ()) :
    (passing .atLeast least partialLeast).Splits :=
  splits_passing fun t ht => decide_eq_true (le_of_checkFloors hbound h t ht)

/-- How many of some required things there are. -/
def tally (required : Nat) (least : Option Nat) : Scale Nat where
  AtMost m n := m ≤ n
  met n := required ≤ n
  partly? := least.map fun k n => k ≤ n

theorem splits_tally {required : Nat} {least : Option Nat} (h : ∀ k ∈ least, k ≤ required) :
    (tally required least).Splits := by
  refine splits_of_tests ?_ ?_ ?_
  · intro test htest n hn
    obtain ⟨k, hk, rfl⟩ := Option.mem_map.1 htest
    exact decide_eq_true ((h k hk).trans (of_decide_eq_true hn))
  · intro m n hmn hm
    exact decide_eq_true ((of_decide_eq_true hm).trans hmn)
  · intro test htest m n hmn hm
    obtain ⟨k, -, rfl⟩ := Option.mem_map.1 htest
    exact decide_eq_true ((of_decide_eq_true hm).trans hmn)

/-- Measurements of things of which there may be none, which is best. -/
def orNothing (s : Scale α) : Scale (Option α) where
  AtMost x y := ∀ y' ∈ y, ∃ x' ∈ x, s.AtMost x' y'
  met x := x.all s.met
  partly? := s.partly?.map fun test x => x.all test

theorem Splits.orNothing (h : s.Splits) : s.orNothing.Splits := by
  refine splits_of_tests ?_ ?_ ?_
  · intro test htest x hx
    obtain ⟨test, hmem, rfl⟩ := Option.mem_map.1 htest
    -- Nothing passes every test.
    cases x with
    | none => rfl
    | some x => exact h.relaxes test hmem x hx
  · intro x y hxy hx
    -- Only something has to be compared; nothing is at least as good as all else.
    cases y with
    | none => rfl
    | some y =>
      obtain ⟨x', hx', hle⟩ := hxy y rfl
      cases hx'
      exact h.met_of_atMost hle hx
  · intro test htest x y hxy hx
    obtain ⟨test, hmem, rfl⟩ := Option.mem_map.1 htest
    cases y with
    | none => rfl
    | some y =>
      obtain ⟨x', hx', hle⟩ := hxy y rfl
      cases hx'
      exact h.partly_of_atMost hmem hle hx

/-- Vulnerabilities that make a criterion unmet or only partly met. -/
def audited (p : Rule.Audit.Limits) : Scale AuditReport where
  AtMost := AuditReport.Improves
  met r := Rule.Audit.blocking r p = 0 ∧ Rule.Audit.degrading r p = 0
  partly? := p.partialOn.map fun _ r => Rule.Audit.blocking r p = 0

theorem splits_audited (p : Rule.Audit.Limits) : (audited p).Splits := by
  -- A count that is no greater than zero is zero.
  have hzero {m n : UInt64} (hle : n ≤ m) (hm : m = 0) : n = 0 :=
    UInt64.le_zero_iff.1 (hm ▸ hle)
  refine splits_of_tests ?_ ?_ ?_
  · intro test htest r hr
    obtain ⟨_, -, rfl⟩ := Option.mem_map.1 htest
    exact decide_eq_true (of_decide_eq_true hr).1
  · intro r r' hr hmet
    obtain ⟨hblocking, hdegrading⟩ := of_decide_eq_true hmet
    exact decide_eq_true ⟨hzero (Rule.Audit.blocking_le hr p) hblocking,
      hzero (Rule.Audit.degrading_le hr p) hdegrading⟩
  · intro test htest r r' hr hpartly
    obtain ⟨_, -, rfl⟩ := Option.mem_map.1 htest
    exact decide_eq_true (hzero (Rule.Audit.blocking_le hr p) (of_decide_eq_true hpartly))

/-! ### Bands of a measurement -/

theorem band_capped (limit partialLimit : Option UInt64) (n : UInt64) :
    (capped limit partialLimit).band n
      = .ofTests (limit.all (n ≤ ·)) (partialLimit.map (n ≤ ·)) := by
  unfold band capped
  rw [Option.map_map]
  rfl

theorem band_passing (d : Direction) (threshold : Float) (partialThreshold : Option Float)
    (x : Float) :
    (passing d threshold partialThreshold).band x
      = .ofTests (d.passes x threshold) (partialThreshold.map (d.passes x ·)) := by
  unfold band passing
  rw [Option.map_map]
  rfl

/-- Nothing is missing where there are as many things as are required. -/
theorem band_tally {β : Type} (required : List β) (found : β → Bool) (least : Option Nat) :
    (tally required.length least).band (required.filter found).length
      = .ofTests (required.filter fun a => !found a).isEmpty
        (least.map (· ≤ (required.filter found).length)) := by
  -- As many are found as are required if and only if none is left over.
  have hmissing : decide (required.length ≤ (required.filter found).length)
      = (required.filter fun a => !found a).isEmpty := by
    rw [Bool.eq_iff_iff, decide_eq_true_iff, List.isEmpty_iff, List.filter_eq_nil_iff,
      (List.length_filter_le found required).ge_iff_eq, List.length_filter_eq_length_iff]
    simp
  unfold band tally
  rw [Option.map_map, ← hmissing]
  rfl

theorem band_orNothing_some (s : Scale α) (x : α) : s.orNothing.band (some x) = s.band x := by
  unfold band orNothing
  rw [Option.map_map]
  rfl

theorem band_audited (p : Rule.Audit.Limits) (r : AuditReport) :
    (audited p).band r = Rule.Audit.status r p := by
  have hpos (n : UInt64) : 0 < n ↔ n ≠ 0 := UInt64.pos_iff_ne_zero
  unfold band audited Rule.Audit.status
  rw [Option.map_map]
  -- The cases are those of the rule: something blocks, something only degrades, or neither.
  by_cases hblocking : Rule.Audit.blocking r p = 0
  · by_cases hdegrading : Rule.Audit.degrading r p = 0
    · simp [hpos, hblocking, hdegrading, Status.ofTests]
    · -- Something can only be degrading at a level for that.
      cases hlevel : p.partialOn with
      | none => exact absurd (by rw [Rule.Audit.degrading, hlevel]; rfl) hdegrading
      | some level => simp [hpos, hblocking, hdegrading, Status.ofTests]
  · cases p.partialOn with
    | none => simp [hpos, hblocking, Status.ofTests]
    | some level => simp [hpos, hblocking, Status.ofTests]

end Scale

/-! ### Judging by bands -/

/-- The rule takes a measurement, if there is one, and judges by the band that it lies in. -/
structure TypedRule.OnScale {π α : Type} (r : TypedRule π) (measure? : π → Snapshot → Option α)
    (scale : π → Scale α) : Prop where
  splits : ∀ p, r.check p = .ok () → (scale p).Splits
  relaxed : ∀ p, (scale p).partly?.isSome = r.hasPartial p
  status : ∀ c s p, (r.decide c s p).status = ((measure? p s).map (scale p).band).getD .unmet

namespace Rule.JudgesOn

variable {α : Type} {rule : Rule} {params : Params} {measure? : Snapshot → Option α}
  {scale : Scale α}

end Rule.JudgesOn

/-! ### Vulnerabilities from a level on -/

namespace AuditReport

variable {r : AuditReport}

/-- There is a vulnerability of the level or of a more serious one. -/
def Reaches (r : AuditReport) (level : Vulnerability) : Prop :=
  ∃ v, level.rank ≤ v.rank ∧ r.ofLevel v ≠ 0

end AuditReport

/-! ### The rules -/

namespace Rule

/-- The number of issues that count. -/
def Lint.measure? (p : Limits) (s : Snapshot) : Option UInt64 := s.lint.map (counted · p)

def Lint.scale (p : Limits) : Scale UInt64 := .capped (some p.maxIssues) p.partialMaxIssues

theorem Lint.onScale : Lint.rule.OnScale Lint.measure? Lint.scale := by
  refine ⟨fun p hp => ?_, fun p => Option.isSome_map, fun c s p => ?_⟩
  -- What is checked of the two limits is that they are in order.
  · refine Scale.splits_capped fun q hq => ⟨_, rfl, ?_⟩
    change Limits.check p = .ok () at hp
    unfold Limits.check at hp
    rw [Option.mem_def.1 hq] at hp
    exact UInt64.not_lt.1 (Except.ite_error_eq_ok_iff.1 hp).1
  · rw [judgesBy c s p]
    unfold measure? scale
    cases s.lint with
    | none => rfl
    | some r => exact (Scale.band_capped (some p.maxIssues) _ (counted r p)).symm

/-- The number of warnings of a build that succeeds. -/
def Build.measure? (_ : Limits) (s : Snapshot) : Option UInt64 :=
  s.build.bind fun r => if r.success then some r.warningCount else none

def Build.scale (p : Limits) : Scale UInt64 := .capped p.maxWarnings p.partialMaxWarnings

theorem Build.onScale : Build.rule.OnScale Build.measure? Build.scale := by
  refine ⟨fun p hp => ?_, fun p => Option.isSome_map, fun c s p => ?_⟩
  · refine Scale.splits_capped fun q hq => ?_
    change Limits.check p = .ok () at hp
    unfold Limits.check at hp
    rw [Option.mem_def.1 hq] at hp
    -- A limit for a partial status alone is refused.
    cases hlimit : p.maxWarnings with
    | none =>
      rw [hlimit] at hp
      exact nomatch hp
    | some l =>
      rw [hlimit] at hp
      exact ⟨l, rfl, UInt64.not_lt.1 (Except.ite_error_eq_ok_iff.1 hp).1⟩
  · rw [judgesBy c s p]
    unfold measure? scale
    cases s.build with
    | none => rfl
    | some r =>
      change status r p = _
      unfold status
      rw [Option.bind_some]
      -- A build that fails is not measured, and so it is unmet.
      split
      · exact (Scale.band_capped p.maxWarnings _ r.warningCount).symm
      · rfl

def Audit.scale (p : Limits) : Scale AuditReport := .audited p

theorem Audit.onScale : Audit.rule.OnScale (fun _ => Snapshot.dependencyAudit) Audit.scale := by
  refine ⟨fun p _ => Scale.splits_audited p, fun p => Option.isSome_map, fun c s p => ?_⟩
  -- The order of the levels does not matter here: both tests are about counts.
  rw [judgesBy c s p]
  cases s.dependencyAudit with
  | none => rfl
  | some r => exact (Scale.band_audited p r).symm

/-- The share of tests that pass, if there are enough of them. -/
def Tests.measure? (p : Floors) (s : Snapshot) : Option Float := s.tests.bind (rate? · p)

def Tests.scale (p : Floors) : Scale Float :=
  .passing .atLeast p.minPassRate p.partialMinPassRate

theorem Tests.onScale : Tests.rule.OnScale Tests.measure? Tests.scale := by
  refine ⟨fun p hp => ?_, fun p => Option.isSome_map, fun c s p => ?_⟩
  · exact Scale.splits_of_checkFloors (by norm_num) hp
  · rw [judgesBy c s p]
    unfold measure? scale
    cases s.tests with
    | none => rfl
    | some r =>
      change status r p = _
      unfold status
      rw [Option.bind_some]
      -- Without enough tests there is no rate.
      cases rate? r p with
      | none => rfl
      | some rate =>
        exact (Scale.band_passing .atLeast p.minPassRate p.partialMinPassRate rate).symm

/-- The share of lines that are reached, in percent. -/
def Coverage.measure? (_ : Floors) (s : Snapshot) : Option Float := s.coverage.map (·.linePercent)

def Coverage.scale (p : Floors) : Scale Float :=
  .passing .atLeast p.minPercent p.partialMinPercent

theorem Coverage.onScale : Coverage.rule.OnScale Coverage.measure? Coverage.scale := by
  refine ⟨fun p hp => ?_, fun p => Option.isSome_map, fun c s p => ?_⟩
  · exact Scale.splits_of_checkFloors (by norm_num) hp
  · rw [judgesBy c s p]
    unfold measure? scale
    cases s.coverage with
    | none => rfl
    | some r =>
      exact (Scale.band_passing .atLeast p.minPercent p.partialMinPercent r.linePercent).symm

/-- The number of required sections that a README has. -/
def Readme.measure? (p : Sections) (s : Snapshot) : Option Nat :=
  s.documentation.bind fun r => if r.readmePresent then some (found r p).length else none

def Readme.scale (p : Sections) : Scale Nat := .tally p.required.length p.partialMin

theorem Readme.onScale : Readme.rule.OnScale Readme.measure? Readme.scale := by
  refine ⟨fun p hp => ?_, fun p => Option.isSome_map, fun c s p => ?_⟩
  · refine Scale.splits_tally fun least hleast => ?_
    change Sections.check p = .ok () at hp
    unfold Sections.check at hp
    rw [Option.mem_def.1 hleast] at hp
    exact Nat.not_lt.1 (Except.ite_error_eq_ok_iff.1 (Except.ite_error_eq_ok_iff.1 hp).2).1
  · rw [judgesBy c s p]
    unfold measure? scale
    cases s.documentation with
    | none => rfl
    | some r =>
      change (if r.readmePresent then status r p else .unmet) = _
      rw [Option.bind_some]
      -- Without a README there is nothing to count the sections of.
      split
      · exact (Scale.band_tally p.required (covers r.readmeSections) p.partialMin).symm
      · rfl

/-- The share of public items that are documented, or nothing if there are none. -/
def ApiDocs.measure? (_ : Floors) (s : Snapshot) : Option (Option Float) :=
  s.documentation.map (·.ratio?)

def ApiDocs.scale (p : Floors) : Scale (Option Float) :=
  .orNothing (.passing .atLeast p.minRatio p.partialMinRatio)

theorem ApiDocs.onScale : ApiDocs.rule.OnScale ApiDocs.measure? ApiDocs.scale := by
  refine ⟨fun p hp => ?_, fun p => ?_, fun c s p => ?_⟩
  · exact (Scale.splits_of_checkFloors (by norm_num) hp).orNothing
  · exact Option.isSome_map.trans Option.isSome_map
  · rw [judgesBy c s p]
    unfold measure? scale
    cases s.documentation with
    | none => rfl
    | some r =>
      change status r p = Scale.band _ r.ratio?
      unfold status
      -- Without public items there is no share, which is the best that can be.
      cases r.ratio? with
      | none => rfl
      | some ratio =>
        rw [Scale.band_orNothing_some]
        exact (Scale.band_passing .atLeast p.minRatio p.partialMinRatio ratio).symm

/-- The number of required files that are there. -/
def ProjectFiles.measure? (p : Wanted) (s : Snapshot) : Option Nat :=
  s.documentation.map fun r => (present r p).length

def ProjectFiles.scale (p : Wanted) : Scale Nat := .tally p.required.length p.partialMin

theorem ProjectFiles.onScale :
    ProjectFiles.rule.OnScale ProjectFiles.measure? ProjectFiles.scale := by
  refine ⟨fun p hp => ?_, fun p => Option.isSome_map, fun c s p => ?_⟩
  · refine Scale.splits_tally fun least hleast => ?_
    change Wanted.check p = .ok () at hp
    unfold Wanted.check at hp
    rw [Option.mem_def.1 hleast] at hp
    -- The check bounds the number from both sides, of which the upper one is needed.
    have hbounds := (Except.ite_error_eq_ok_iff.1 (Except.ite_error_eq_ok_iff.1 hp).2).1
    omega
  · rw [judgesBy c s p]
    unfold measure? scale
    cases s.documentation with
    | none => rfl
    | some r => exact (Scale.band_tally p.required (·.isPresent r) p.partialMin).symm

/-- The number of the metric. -/
def MetricThreshold.measure? (p : Thresholds) (s : Snapshot) : Option Float := p.metric.read? s

def MetricThreshold.scale (p : Thresholds) : Scale Float := .passing p.direction p.met p.partly

theorem MetricThreshold.onScale :
    MetricThreshold.rule.OnScale MetricThreshold.measure? MetricThreshold.scale := by
  refine ⟨fun p hp => ?_, fun p => Option.isSome_map, fun c s p => ?_⟩
  · refine Scale.splits_passing fun t ht => ?_
    change Thresholds.check p = .ok () at hp
    unfold Thresholds.check at hp
    rw [Option.mem_def.1 ht] at hp
    have hordered := (Except.ite_error_eq_ok_iff.1 (Except.ite_error_eq_ok_iff.1 hp).2).2
    -- A stricter threshold for a partial status would have been refused.
    by_contra hstricter
    rw [if_neg hstricter] at hordered
    exact nomatch hordered
  · change (decide c s p).status = _
    unfold decide measure? scale
    cases p.metric.read? s with
    | none => rfl
    | some x => exact (Scale.band_passing p.direction p.met p.partly x).symm

variable {rule : Rule} {params : Params}

end Rule

end Scorecard
