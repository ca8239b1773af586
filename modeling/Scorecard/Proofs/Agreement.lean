import Scorecard.Proofs.Bands
import Scorecard.Proofs.Restore

/-!
# The rule on any metric agrees with the rules on one

Three of the rules grade a number that is also a metric: the share of lines that are reached, the
share of tests that pass and the share of public items that are documented. Each of them does what
the rule on any metric does under the same thresholds. The rule on tests has a guard of its own, the
number of tests; where no more than one is asked for, the guard says no more than that there is a
share. The rule on documented items takes a project without public items for documented, though it
has no share.

* `Thresholds.toParams`, `read_toParams`: thresholds that pass the check can be written and read.
* `TypedRule.AgreesOn`: a rule takes the thresholds of another one, and decides alike.
* `Rule.GradesMetric`: the metric that a rule grades, and the thresholds that its parameters give.
* `Rule.agrees_on_metric`: the rule on any metric takes these thresholds, and judges alike.
-/

namespace Scorecard

/-! ### Thresholds in a document -/

namespace Rule.MetricThreshold

open Decode Decode.Decoder.Restores

/-- The members of a document with the thresholds. -/
def Thresholds.members (t : Thresholds) : List (String × Json) := [
  ("metric", .str t.metric.name),
  ("direction", .str t.direction.key),
  ("met", .ofFloat t.met),
  ("partial", .ofOption .ofFloat t.partly)]

/-- The parameters with the thresholds. -/
def Thresholds.toParams (t : Thresholds) : Params := Json.canonicalMembers t.members

theorem variantNamed_name (m : Metric) : variantNamed Metric.variants m.name = .ok m := by
  cases m <;> rfl

theorem variantNamed_key (d : Direction) : variantNamed Direction.variants d.key = .ok d := by
  cases d <;> rfl

theorem Thresholds.isFinite_of_check {t : Thresholds} (h : t.check = .ok ()) :
    t.met.isFinite = true ∧ ∀ q ∈ t.partly, q.isFinite = true := by
  unfold check at h
  obtain ⟨hmet, h⟩ := Except.ite_error_eq_ok_iff.1 h
  refine ⟨by simpa using hmet, fun q hq => ?_⟩
  -- A threshold for a partial status is checked after the one for met.
  rw [Option.mem_def.1 hq] at h
  simpa using (Except.ite_error_eq_ok_iff.1 h).1

theorem Thresholds.restores_members {t : Thresholds} (h : t.check = .ok ()) :
    decode.Restores t (.obj t.members) := by
  obtain ⟨hmet, hpartly⟩ := isFinite_of_check h
  have hpartly := optional (fun _ => ⟨_, rfl⟩) fun q hq => float (hpartly q hq)
  exact (Record.Restores.make Thresholds.mk
    |>.required "metric" (variant (variantNamed_name t.metric)) (by simp)
    |>.defaulted "direction" (variant (variantNamed_key t.direction)) (by simp)
    |>.required "met" (float hmet) (by simp)
    |>.defaulted "partial" hpartly (by simp)).decode "MetricThresholdParams" true

/-- Thresholds that pass the check can be written, and the rule reads them. -/
theorem read_toParams {t : Thresholds} (h : t.check = .ok ()) : rule.read t.toParams = .ok t := by
  have hread := Thresholds.restores_members h .tree
  rw [Json.canonical] at hread
  exact Except.mapError_eq_ok_iff.2 hread

end Rule.MetricThreshold

/-! ### Rules that agree -/

/-- Two verdicts that differ in their evidence at most. -/
structure Verdict.Alike (v w : Verdict) : Prop where
  status : v.status = w.status
  score : v.score = w.score

namespace TypedRule

variable {π π' : Type} {r : TypedRule π} {r' : TypedRule π'}

/-- Where the second rule takes parameters, the first one takes `translate` of them, allows for a
partial status alike, and decides alike by the snapshots in question. -/
structure AgreesOn (r : TypedRule π) (r' : TypedRule π') (translate : π' → π)
    (Within : π' → Snapshot → Prop) : Prop where
  takes : ∀ p, r'.check p = .ok () → r.check (translate p) = .ok ()
  relaxed : ∀ p, r.hasPartial (translate p) = r'.hasPartial p
  status : ∀ c s p, Within p s → (r.decide c s (translate p)).status = (r'.decide c s p).status

/-- Parameters in documents are taken and judged by alike; for honest rules the scores follow the
statuses. -/
theorem AgreesOn.judge {translate : π' → π} {Within : π' → Snapshot → Prop}
    (h : r.AgreesOn r' translate Within) (hr : r.Honest) (hr' : r'.Honest) {params params' : Params}
    {p : π'} (haccept : r'.accept params' = .ok p) (hread : r.read params = .ok (translate p)) :
    r.toRule.validate params = .ok () ∧
    r.toRule.allowsPartial params = r'.toRule.allowsPartial params' ∧
    ∀ c s, Within p s → ∃ v v', r.toRule.judge c s params = .ok v ∧
      r'.toRule.judge c s params' = .ok v' ∧ v.Alike v' := by
  obtain ⟨hread', hcheck'⟩ := of_accept haccept
  have haccepts : r.accept params = .ok (translate p) := accept_of_read hread (h.takes p hcheck')
  refine ⟨?_, ?_, fun c s hs => ⟨r.decide c s (translate p), r'.decide c s p, ?_, ?_, ?_, ?_⟩⟩
  · simp only [TypedRule.toRule, haccepts]
    rfl
  · simp only [TypedRule.toRule, hread, hread', h.relaxed]
  · simp only [TypedRule.toRule, haccepts]
  · simp only [TypedRule.toRule, haccept]
  · exact h.status c s p hs
  -- An honest rule gives the points that go with the status.
  · rw [(hr c s (translate p)).score, (hr' c s p).score, h.status c s p hs]

end TypedRule

/-! ### Rules on one metric -/

namespace Rule

open MetricThreshold (Thresholds)

/-- Thresholds in a range are finite and in order. -/
theorem MetricThreshold.check_of_checkFloors {bound : ℕ} {name partialName : String} {least : Float}
    {partialLeast : Option Float} (hbound : bound < 2 ^ 53)
    (h : checkFloors bound name least partialName partialLeast = .ok ()) (m : Metric) :
    Thresholds.check ⟨m, .atLeast, least, partialLeast⟩ = .ok () := by
  have hordered := le_of_checkFloors hbound h
  unfold checkFloors at h
  obtain ⟨⟨⟩, hleast, h⟩ := Except.bind_eq_ok_iff.1 h
  -- Whatever lies in a range is finite.
  have hfinite {name : String} {x : Float} (hx : checkWithin bound name x = .ok ()) :
      x.isFinite = true := (liesWithin_eq_true_iff.1 (checkWithin_eq_ok_iff.1 hx)).1
  unfold Thresholds.check noStricter
  cases partialLeast with
  | none => simp [hfinite hleast]
  | some q =>
    obtain ⟨⟨⟩, hpartial, -⟩ := Except.bind_eq_ok_iff.1 h
    simp [hfinite hleast, hfinite hpartial, hordered q rfl]

/-- The thresholds for the share of lines that are reached. -/
def Coverage.thresholds (p : Floors) : Thresholds :=
  ⟨.lineCoverage, .atLeast, p.minPercent, p.partialMinPercent⟩

theorem Coverage.agreesOn :
    MetricThreshold.rule.AgreesOn Coverage.rule Coverage.thresholds fun _ _ => True where
  takes p hp := MetricThreshold.check_of_checkFloors (by norm_num) hp .lineCoverage
  relaxed _ := rfl
  status c s p _ := by
    rw [MetricThreshold.onScale.status, Coverage.onScale.status]
    rfl

/-- The thresholds for the share of tests that pass. -/
def Tests.thresholds (p : Floors) : Thresholds :=
  ⟨.testPassRate, .atLeast, p.minPassRate, p.partialMinPassRate⟩

/-- Without a test there is no share, and with one there are enough. -/
theorem Tests.rate?_of_le_one {p : Floors} (hp : p.minTests ≤ 1) (r : TestReport) :
    rate? r p = r.passRate? := by
  unfold rate?
  split
  · rfl
  · next htotal =>
    -- Too few tests are none at all where no more than one is asked for.
    have hzero : r.total = 0 := by
      have hlt := UInt64.lt_of_lt_of_le (UInt64.not_le.1 htotal) hp
      exact UInt64.lt_one_iff.1 hlt
    unfold TestReport.passRate? ratio?
    rw [if_pos hzero]

theorem Tests.agreesOn :
    MetricThreshold.rule.AgreesOn Tests.rule Tests.thresholds fun p _ => p.minTests ≤ 1 where
  takes p hp := MetricThreshold.check_of_checkFloors (by norm_num) hp .testPassRate
  relaxed _ := rfl
  status c s p hp := by
    -- The two rules measure the same; the scales are the same by definition.
    have hmeasure : Tests.measure? p s = MetricThreshold.measure? (Tests.thresholds p) s := by
      unfold Tests.measure?
      simp only [Tests.rate?_of_le_one hp]
      rfl
    rw [MetricThreshold.onScale.status, Tests.onScale.status, hmeasure]
    rfl

/-- The thresholds for the share of public items that are documented. -/
def ApiDocs.thresholds (p : Floors) : Thresholds :=
  ⟨.documentedShare, .atLeast, p.minRatio, p.partialMinRatio⟩

theorem ApiDocs.agreesOn :
    MetricThreshold.rule.AgreesOn ApiDocs.rule ApiDocs.thresholds
      fun _ s => ∀ r ∈ s.documentation, 0 < r.totalItems where
  takes p hp := MetricThreshold.check_of_checkFloors (by norm_num) hp .documentedShare
  relaxed _ := rfl
  status c s p hs := by
    rw [MetricThreshold.onScale.status, ApiDocs.onScale.status]
    unfold ApiDocs.measure? ApiDocs.scale
    change (Option.map _ (s.documentation.bind (·.ratio?))).getD _ = _
    -- Without items the rules differ, which the snapshots in question exclude.
    cases hdocs : s.documentation with
    | none => rfl
    | some r =>
      -- Where there are items, they have a share.
      have hne : r.totalItems ≠ 0 := (UInt64.pos_iff_ne_zero).1 (hs r hdocs)
      have hratio : r.ratio? = some (r.documentedItems.toFloat / r.totalItems.toFloat) := if_neg hne
      rw [Option.bind_some, Option.map_some, hratio]
      exact (Scale.band_orNothing_some _ _).symm

/-- What a rule grades by a metric under its parameters: the thresholds that these give, and the
snapshots by which it does so. -/
inductive GradesMetric (params : Params) : Rule → Thresholds → (Snapshot → Prop) → Prop
  | coverage {p : Coverage.Floors} (h : Coverage.rule.accept params = .ok p) :
    GradesMetric params Coverage.rule.toRule (Coverage.thresholds p) fun _ => True
  | tests {p : Tests.Floors} (h : Tests.rule.accept params = .ok p) (hp : p.minTests ≤ 1) :
    GradesMetric params Tests.rule.toRule (Tests.thresholds p) fun _ => True
  | apiDocs {p : ApiDocs.Floors} (h : ApiDocs.rule.accept params = .ok p) :
    GradesMetric params ApiDocs.rule.toRule (ApiDocs.thresholds p)
      fun s => ∀ r ∈ s.documentation, 0 < r.totalItems

variable {rule : Rule} {params : Params} {t : Thresholds} {Within : Snapshot → Prop}

theorem GradesMetric.check (h : GradesMetric params rule t Within) : t.check = .ok () := by
  cases h with
  | coverage h => exact Coverage.agreesOn.takes _ (TypedRule.of_accept h).2
  | tests h _ => exact Tests.agreesOn.takes _ (TypedRule.of_accept h).2
  | apiDocs h => exact ApiDocs.agreesOn.takes _ (TypedRule.of_accept h).2

/-- The rules on one metric agree with the rule on any metric: whatever thresholds they accept, the
rule on any metric takes them with the direction upwards, from the document that is written of them
and from every other one, allows for a partial status alike, and gives every criterion the same
status and score by every snapshot. -/
theorem agrees_on_metric (h : GradesMetric params rule t Within) :
    MetricThreshold.rule.read t.toParams = .ok t ∧
    ∀ params', MetricThreshold.rule.read params' = .ok t →
      MetricThreshold.rule.toRule.validate params' = .ok () ∧
      MetricThreshold.rule.toRule.allowsPartial params' = rule.allowsPartial params ∧
      ∀ c s, Within s → ∃ v v', MetricThreshold.rule.toRule.judge c s params' = .ok v ∧
        rule.judge c s params = .ok v' ∧ v.Alike v' := by
  refine ⟨MetricThreshold.read_toParams h.check, fun params' hread => ?_⟩
  cases h with
  | coverage h =>
    exact Coverage.agreesOn.judge MetricThreshold.honest Coverage.honest h hread
  -- Here the condition is one on the parameters, and holds for every snapshot.
  | tests h hp =>
    obtain ⟨hvalid, hrelaxed, hjudge⟩ :=
      Tests.agreesOn.judge MetricThreshold.honest Tests.honest h hread
    exact ⟨hvalid, hrelaxed, fun c s _ => hjudge c s hp⟩
  | apiDocs h =>
    exact ApiDocs.agreesOn.judge MetricThreshold.honest ApiDocs.honest h hread

/-- A snapshot of a project whose tests are found, though there are none. -/
private def noTests : Snapshot where
  language := "Rust"
  lint := none
  build := none
  dependencyAudit := none
  tests := some ⟨"nextest", 0, 0, 0, 0⟩
  coverage := none
  documentation := none

/-- Without tests the share that is asked for is not reached, even where no number of tests is asked
for, and the rule on any metric says so too. -/
theorem agrees_on_metric_noTests :
    let params : Params := .ofList [("min_pass_rate", .ofFloat 0), ("min_tests", .ofNat 0)]
    ∃ p, GradesMetric params Tests.rule.toRule (Tests.thresholds p) (fun _ => True) ∧
      ∀ c, ∃ v v',
        MetricThreshold.rule.toRule.judge c noTests (Tests.thresholds p).toParams = .ok v ∧
        Tests.rule.toRule.judge c noTests params = .ok v' ∧ v.Alike v' ∧ v.status = .unmet := by
  intro params
  have hvalid : Tests.rule.toRule.validate params = .ok () := by decide +kernel
  obtain ⟨p, haccept, -⟩ := TypedRule.exists_accept hvalid
  have hleast : (Tests.rule.accept params).toOption.map (·.minTests) = some 0 := by decide +kernel
  rw [haccept] at hleast
  have hzero : p.minTests = 0 := Option.some_inj.1 hleast
  have hp : p.minTests ≤ 1 := by
    rw [hzero]
    decide
  have hgrades : GradesMetric params Tests.rule.toRule (Tests.thresholds p) fun _ => True :=
    .tests haccept hp
  refine ⟨p, hgrades, fun c => ?_⟩
  obtain ⟨hread, hagrees⟩ := agrees_on_metric hgrades
  obtain ⟨v, v', hv, hv', halike⟩ := (hagrees _ hread).2.2 c noTests trivial
  refine ⟨v, v', hv, hv', halike, ?_⟩
  have hjudge : Tests.rule.toRule.judge c noTests params = .ok (Tests.rule.decide c noTests p) := by
    simp only [TypedRule.toRule, haccept]
  -- There is no share of no tests, and nothing passes without one.
  have hnone : Tests.measure? p noTests = none := (Tests.rate?_of_le_one hp _).trans rfl
  rw [halike.status, ← Except.ok.inj (hjudge.symm.trans hv'), Tests.onScale.status, hnone]
  rfl

end Rule

end Scorecard
