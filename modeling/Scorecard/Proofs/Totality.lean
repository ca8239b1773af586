import Scorecard.Proofs.EvaluationCourses
import Scorecard.Proofs.Points
import Scorecard.Proofs.Verdict
import Scorecard.Rubric.Standard

/-!
# Evaluations by the rules that every rubric can use

By these rules every valid rubric judges every valid snapshot, for every language: the rules take
the parameters for any spelling of a language, their verdicts hold up, and the identities of the
items do not meet.

* `Evaluator.exists_decides`: an honest rule decides a criterion.
* `Evaluator.exists_settles`: honest rules settle whatever is valid.
* `Evaluator.exists_evaluation_of_builtin`: there is always an outcome.
-/

namespace Scorecard.Evaluator

variable {e : Evaluator} {s : Snapshot} {language : String}

/-- A criterion is decided by an honest rule that takes its parameters. -/
theorem exists_decides {c : Criterion} (h : c.Valid e.registry)
    (hhonest : ∀ rule, e.registry.get? c.rule = some rule → rule.Honest) :
    ∃ v, e.Decides s language c v := by
  obtain ⟨rule, hrule, haccepts⟩ := h.rule
  obtain ⟨v, hjudge, hv⟩ := hhonest rule hrule ⟨c.id, c.dimension, c.maxPoints, language⟩ s
    (c.effectiveParams language) (haccepts.effectiveParams language)
  obtain ⟨q, hworth, -⟩ := Binary64.exists_worth h.finite
  -- The score is the one that the status fixes, and that one counts as equal to itself.
  have hconsistent : v.status.isConsistent v.score c.maxPoints = true := by
    rw [hv.score]
    exact v.status.isConsistent_points hworth (hworth.pos h.positive).le
  exact ⟨v, rule, hrule, hjudge, checkVerdict_eq_ok_iff.2 ⟨hconsistent, hv.relaxed, hv.evidence⟩⟩

/-- Where all rules are honest, whatever is valid is settled. -/
theorem exists_settles {r : Rubric} (language : String) (hvalid : r.Valid e.registry)
    (hflawless : s.flaw? = none)
    (hhonest : ∀ name rule, e.registry.get? name = some rule → rule.Honest) :
    ∃ ds, e.Settles r s language ds := by
  obtain ⟨ds, hds⟩ := exists_decidesAll fun c hc =>
    exists_decides (hvalid.criteria c hc) (hhonest c.rule)
  exact ⟨ds, hvalid, hflawless, hds⟩

/-- By the rules that every rubric can use, a rubric without issues and a snapshot without a flaw
have an outcome, for whatever language it is asked. -/
theorem exists_evaluation_of_builtin {r : Rubric} (language : String) (j : Journal)
    (hregistry : e.registry = .builtin) (hrubric : r.issues .builtin = [])
    (hsnapshot : s.flaw? = none) : ∃ ev, (e.evaluate r s language).result j = .ok ev := by
  have hvalid : r.Valid e.registry := by
    rw [hregistry]
    exact Rubric.issues_eq_nil_iff.1 hrubric
  have hhonest : ∀ name rule, e.registry.get? name = some rule → rule.Honest := by
    rw [hregistry]
    exact fun _ _ => Registry.honest_of_builtin
  obtain ⟨ds, hds⟩ := exists_settles language hvalid hsnapshot hhonest
  exact ⟨assemble r ds, evaluate_eq_ok_iff.2 ⟨ds, hds, rfl⟩⟩

end Scorecard.Evaluator

namespace Scorecard

/-- The standard rubric has no issues. -/
theorem Rubric.issues_standard : Rubric.standard.issues .builtin = [] := by decide +kernel

/-- A repository of which nothing is known but its language. -/
def Snapshot.bare (language : String) : Snapshot := ⟨language, none, none, none, none, none, none⟩

/-- The standard rubric judges even a repository of which nothing is known, in an odd spelling of
its language. -/
theorem Evaluator.exists_evaluation_of_standard :
    (ofRegistry .builtin).registry = .builtin ∧ Rubric.standard.issues .builtin = [] ∧
      (Snapshot.bare "Python").flaw? = none ∧
      ∃ ev, ((ofRegistry .builtin).evaluate .standard (.bare "Python") " PYTHON ").result .empty
        = .ok ev :=
  ⟨rfl, Rubric.issues_standard, by decide,
    exists_evaluation_of_builtin _ _ rfl Rubric.issues_standard (by decide)⟩

end Scorecard
