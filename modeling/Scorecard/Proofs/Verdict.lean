import Scorecard.Proofs.Except
import Scorecard.Rule.Registry

/-!
# Verdicts of rules

A rule is honest if its verdict holds up: the score is the one that the status fixes, a partial
status has a partial threshold behind it, and there is evidence. All rules that every rubric can
use are honest, and they judge by any parameters that they have taken.

* `Verdict.Honest`, `Rule.Honest`: what it is for a verdict to hold up.
* `TypedRule.exists_accept`: what a rule takes has been read and checked.
* `TypedRule.Honest.toRule`: it is enough that a rule decides so.
* `Registry.honest_of_builtin`: the rules that every rubric can use.
-/

namespace Scorecard

/-- A verdict that holds up; `relaxed` tells whether the parameters have a partial threshold. -/
structure Verdict.Honest (c : Criterion.Context) (relaxed : Bool) (v : Verdict) : Prop where
  score : v.score = v.status.points c.maxPoints
  relaxed : v.status = .partly → relaxed = true
  evidence : v.evidence ≠ []

/-- The rule decides so that its verdicts hold up. -/
def TypedRule.Honest {π : Type} (r : TypedRule π) : Prop :=
  ∀ c s p, (r.decide c s p).Honest c (r.hasPartial p)

/-- The rule judges by all parameters that it has taken, with a verdict that holds up. -/
def Rule.Honest (r : Rule) : Prop :=
  ∀ c s params, r.validate params = .ok () →
    ∃ v, r.judge c s params = .ok v ∧ v.Honest c (r.allowsPartial params)

/-! ### From deciding to judging -/

namespace TypedRule

variable {π : Type}

/-- Parameters that have been accepted have been read, and pass the check. -/
theorem of_accept {r : TypedRule π} {params : Params} {p : π} (h : r.accept params = .ok p) :
    r.read params = .ok p ∧ r.check p = .ok () := by
  unfold accept at h
  obtain ⟨q, hread, h⟩ := Except.bind_eq_ok_iff.1 h
  obtain ⟨⟨⟩, hcheck, h⟩ := Except.bind_eq_ok_iff.1 h
  cases h
  exact ⟨hread, hcheck⟩

/-- Parameters that are read and pass the check are accepted. -/
theorem accept_of_read {r : TypedRule π} {params : Params} {p : π} (hread : r.read params = .ok p)
    (hcheck : r.check p = .ok ()) : r.accept params = .ok p := by
  unfold accept
  simp only [hread, Except.bind_eq_ok_iff]
  exact ⟨_, rfl, (), hcheck, rfl⟩

/-- Parameters that the rule takes are read, and pass its check. -/
theorem exists_accept {r : TypedRule π} {params : Params}
    (h : r.toRule.validate params = .ok ()) :
    ∃ p, r.accept params = .ok p ∧ r.read params = .ok p ∧ r.check p = .ok () := by
  -- To take parameters is to accept them and to drop what has been read.
  obtain ⟨p, haccept, -⟩ := Except.map_eq_ok_iff.1 (Except.mapError_eq_ok_iff.1 h)
  exact ⟨p, haccept, of_accept haccept⟩

/-- It is enough that a rule decides honestly: it reads the same parameters when it takes them,
when it tells whether they have a partial threshold and when it judges. -/
theorem Honest.toRule {r : TypedRule π} (h : r.Honest) : r.toRule.Honest := by
  intro c s params hvalid
  obtain ⟨p, haccept, hread, -⟩ := exists_accept hvalid
  refine ⟨r.decide c s p, ?_, ?_⟩
  · simp only [TypedRule.toRule, haccept]
  · simp only [TypedRule.toRule, hread]
    exact h c s p

end TypedRule

/-! ### Verdicts -/

namespace Verdict

theorem honest_ofStatus {c : Criterion.Context} {relaxed : Bool} {status : Status}
    {evidence : List Draft} (hrelaxed : status = .partly → relaxed = true)
    (hne : evidence ≠ []) : (ofStatus c status evidence).Honest c relaxed :=
  ⟨rfl, hrelaxed, hne⟩

theorem honest_unavailable (c : Criterion.Context) (relaxed : Bool) (category : String) :
    (unavailable c category).Honest c relaxed :=
  honest_ofStatus (fun h => nomatch h) (List.cons_ne_nil _ _)

end Verdict

theorem Status.ofTests_eq_met_iff {met : Bool} {partly : Option Bool} :
    ofTests met partly = .met ↔ met = true := by
  unfold ofTests
  split
  · simp [*]
  · split <;> simp [*]

theorem Status.ofTests_eq_partly_iff {met : Bool} {partly : Option Bool} :
    ofTests met partly = .partly ↔ ¬ met = true ∧ partly = some true := by
  unfold ofTests
  split
  · simp [*]
  · split <;> simp [*]

theorem Status.ofTests_eq_unmet_iff {met : Bool} {partly : Option Bool} :
    ofTests met partly = .unmet ↔ ¬ met = true ∧ ¬ partly = some true := by
  unfold ofTests
  split
  · simp [*]
  · split <;> simp [*]

/-- Only a threshold for it makes a measurement count as partly met. -/
theorem Status.isSome_of_ofTests {α : Type} {met : Bool} {threshold : Option α}
    {passes : α → Bool} (h : ofTests met (threshold.map passes) = .partly) :
    threshold.isSome = true := by
  -- Without a threshold the test for a partial status is not made.
  cases threshold with
  | some t => rfl
  | none => cases met <;> exact nomatch h

/-! ### The rules -/

namespace Rule

open Verdict Status

theorem Lint.honest : Lint.rule.Honest := by
  intro c s p
  change (Lint.decide c s p).Honest c p.partialMaxIssues.isSome
  unfold Lint.decide
  split
  · exact honest_unavailable ..
  · exact honest_ofStatus isSome_of_ofTests (List.cons_ne_nil _ _)

theorem Build.honest : Build.rule.Honest := by
  intro c s p
  change (Build.decide c s p).Honest c p.partialMaxWarnings.isSome
  unfold Build.decide
  split
  · exact honest_unavailable ..
  · refine honest_ofStatus (fun h => ?_) (List.cons_ne_nil _ _)
    -- A build that fails is never partly met.
    unfold Build.status at h
    split at h
    · exact isSome_of_ofTests h
    · exact nomatch h

theorem Audit.honest : Audit.rule.Honest := by
  intro c s p
  change (Audit.decide c s p).Honest c p.partialOn.isSome
  unfold Audit.decide
  split
  · exact honest_unavailable ..
  · refine honest_ofStatus (fun h => ?_) (List.cons_ne_nil _ _)
    -- Something can only be degrading at a level for that.
    unfold Audit.status Audit.degrading at h
    cases hlevel : p.partialOn with
    | some level => rfl
    | none =>
      rw [hlevel] at h
      split at h <;> exact nomatch h

theorem Tests.honest : Tests.rule.Honest := by
  intro c s p
  change (Tests.decide c s p).Honest c p.partialMinPassRate.isSome
  unfold Tests.decide
  split
  · exact honest_unavailable ..
  · refine honest_ofStatus (fun h => ?_) (List.cons_ne_nil _ _)
    -- Without tests nothing is partly met.
    unfold Tests.status at h
    split at h
    · exact isSome_of_ofTests h
    · exact nomatch h

theorem Coverage.honest : Coverage.rule.Honest := by
  intro c s p
  change (Coverage.decide c s p).Honest c p.partialMinPercent.isSome
  unfold Coverage.decide
  split
  · exact honest_unavailable ..
  · exact honest_ofStatus isSome_of_ofTests (List.cons_ne_nil _ _)

theorem Readme.honest : Readme.rule.Honest := by
  intro c s p
  change (Readme.decide c s p).Honest c p.partialMin.isSome
  unfold Readme.decide
  split
  · exact honest_unavailable ..
  · split
    · exact honest_ofStatus isSome_of_ofTests (List.cons_ne_nil _ _)
    · -- Without a README nothing is partly met.
      exact honest_ofStatus (fun h => nomatch h) (List.cons_ne_nil _ _)

theorem ApiDocs.honest : ApiDocs.rule.Honest := by
  intro c s p
  change (ApiDocs.decide c s p).Honest c p.partialMinRatio.isSome
  unfold ApiDocs.decide
  split
  · exact honest_unavailable ..
  · refine honest_ofStatus (fun h => ?_) (List.cons_ne_nil _ _)
    unfold ApiDocs.status at h
    split at h
    · exact nomatch h
    · exact isSome_of_ofTests h

theorem ProjectFiles.honest : ProjectFiles.rule.Honest := by
  intro c s p
  change (ProjectFiles.decide c s p).Honest c p.partialMin.isSome
  unfold ProjectFiles.decide
  split
  · exact honest_unavailable ..
  · exact honest_ofStatus isSome_of_ofTests (List.cons_ne_nil _ _)

theorem MetricThreshold.honest : MetricThreshold.rule.Honest := by
  intro c s p
  change (MetricThreshold.decide c s p).Honest c p.partly.isSome
  unfold MetricThreshold.decide
  split
  · exact honest_unavailable ..
  · exact honest_ofStatus isSome_of_ofTests (List.cons_ne_nil _ _)

end Rule

/-! ### The registry -/

namespace Registry

/-- A registry finds only rules that have been registered, each under its name. -/
private theorem mem_of_get?_foldl {rules : List Rule} {start : Registry} {name : String}
    {rule : Rule} (h : (rules.foldl register start).get? name = some rule) :
    (rule ∈ rules ∧ rule.name = name) ∨ start.get? name = some rule := by
  induction rules generalizing start with
  | nil => exact .inr h
  | cons first rest ih =>
    -- A rule registered later takes the name over; otherwise the first one has it.
    rcases ih h with ⟨hmem, hname⟩ | hget
    · exact .inl ⟨List.mem_cons_of_mem _ hmem, hname⟩
    · unfold register Registry.get? at hget
      rw [Table.get?_insert] at hget
      split at hget
      · next hname =>
        cases hget
        exact .inl ⟨List.mem_cons_self, hname.symm⟩
      · exact .inr hget

/-- A rule that is looked up is one of those that every rubric can use, under its name. -/
theorem mem_builtinRules {name : String} {rule : Rule} (h : builtin.get? name = some rule) :
    rule ∈ builtinRules ∧ rule.name = name := by
  rcases mem_of_get?_foldl h with hmem | hempty
  · exact hmem
  · exact nomatch hempty

/-- The rules that every rubric can use are honest. -/
theorem honest_of_builtin {name : String} {rule : Rule} (h : builtin.get? name = some rule) :
    rule.Honest := by
  have hall : ∀ rule ∈ builtinRules, rule.Honest := by
    unfold builtinRules
    simp only [List.forall_mem_cons, List.not_mem_nil, false_implies, implies_true, and_true]
    exact ⟨Rule.Lint.honest.toRule, Rule.Build.honest.toRule, Rule.Audit.honest.toRule,
      Rule.Tests.honest.toRule, Rule.Coverage.honest.toRule, Rule.Readme.honest.toRule,
      Rule.ApiDocs.honest.toRule, Rule.ProjectFiles.honest.toRule,
      Rule.MetricThreshold.honest.toRule⟩
  exact hall rule (mem_builtinRules h).1

end Registry

end Scorecard
