import Mathlib.Data.List.Forall2
import Scorecard.Evaluation.Basic
import Scorecard.Proofs.Except
import Scorecard.Proofs.Identity
import Scorecard.Proofs.Rubric
import Scorecard.Proofs.Tally

/-!
# What an evaluation decides

A criterion is decided by a verdict of its rule that is accepted. Where rubric and snapshot are
valid and every criterion is decided, every item of evidence is referred to once: items of different
criteria have different identities, and every criterion refers to all of its items.

* `Evaluator.decide_eq_ok_iff`: when a criterion is decided.
* `Evaluator.DecidesAll`, `Evaluator.Settles`: what is decided for all criteria.
* `Evaluator.DecidesAll.references`, `Evaluator.DecidesAll.nodup_ids`: all items are referred to,
  in their order and once.
-/

namespace Scorecard

namespace Evaluator

/-! ### One criterion -/

/-- A verdict is accepted if its score is the one that the status fixes, if a partial status has a
partial threshold behind it, and if there is evidence for it. -/
theorem checkVerdict_eq_ok_iff {c : Criterion} {rule : Rule} {params : Params} {v : Verdict} :
    checkVerdict c rule params v = .ok () ↔ v.status.isConsistent v.score c.maxPoints = true ∧
      (v.status = .partly → rule.allowsPartial params = true) ∧ v.evidence ≠ [] := by
  unfold checkVerdict
  simp only [Except.ite_error_eq_ok_iff, Bool.not_eq_true', Bool.not_eq_false, Bool.and_eq_true,
    decide_eq_true_eq, not_and, List.isEmpty_iff, and_true, ne_eq]

/-- What a criterion's rule has to say for the criterion to be decided. -/
structure Decides (e : Evaluator) (s : Snapshot) (language : String) (c : Criterion)
    (v : Verdict) : Prop where
  judged : ∃ rule, e.registry.get? c.rule = some rule ∧
    rule.judge ⟨c.id, c.dimension, c.maxPoints, language⟩ s (c.effectiveParams language) = .ok v ∧
    checkVerdict c rule (c.effectiveParams language) v = .ok ()

/-- A criterion is decided by a verdict of its rule that is accepted. -/
theorem decide_eq_ok_iff {e : Evaluator} {s : Snapshot} {language : String} {c : Criterion}
    {d : Decided} :
    e.decide s language c = .ok d ↔ ∃ v, e.Decides s language c v ∧ d = accept c v := by
  unfold Evaluator.decide
  constructor
  · intro h
    cases hrule : e.registry.get? c.rule with
    | none =>
      rw [hrule] at h
      exact nomatch h
    | some rule =>
      rw [hrule] at h
      simp only at h
      split at h
      · exact nomatch h
      · next v hjudge =>
        split at h
        · exact nomatch h
        · next hcheck =>
          exact ⟨v, ⟨rule, hrule, hjudge, hcheck⟩, (Except.ok.inj h).symm⟩
  · rintro ⟨v, ⟨rule, hrule, hjudge, hcheck⟩, rfl⟩
    rw [hrule]
    simp only
    rw [hjudge]
    simp only
    rw [hcheck]

/-! ### All criteria -/

/-- Criteria are decided one by one, each by a verdict of its rule. -/
def DecidesAll (e : Evaluator) (s : Snapshot) (language : String) (cs : List Criterion)
    (ds : List Decided) : Prop :=
  List.Forall₂ (fun c d => ∃ v, e.Decides s language c v ∧ d = accept c v) cs ds

theorem map_decide_eq_iff {e : Evaluator} {s : Snapshot} {language : String}
    {cs : List Criterion} {ds : List Decided} :
    cs.map (e.decide s language) = ds.map .ok ↔ e.DecidesAll s language cs ds := by
  -- Two lists of results are the same if they are so place by place.
  rw [← List.forall₂_eq_eq_eq, List.forall₂_map_left_iff, List.forall₂_map_right_iff]
  simp only [decide_eq_ok_iff, DecidesAll]

/-- Where each criterion can be decided, all of them are. -/
theorem exists_decidesAll {e : Evaluator} {s : Snapshot} {language : String}
    {cs : List Criterion} (h : ∀ c ∈ cs, ∃ v, e.Decides s language c v) :
    ∃ ds, e.DecidesAll s language cs ds := by
  induction cs with
  | nil => exact ⟨[], .nil⟩
  | cons c cs ih =>
    obtain ⟨hc, hcs⟩ := List.forall_mem_cons.1 h
    obtain ⟨v, hv⟩ := hc
    obtain ⟨ds, hds⟩ := ih hcs
    exact ⟨accept c v :: ds, .cons ⟨v, hv, rfl⟩ hds⟩

namespace DecidesAll

variable {e : Evaluator} {s : Snapshot} {language : String} {cs : List Criterion}
  {ds : List Decided}

/-- The criteria refer to all items, in the order of the items. -/
theorem references (h : e.DecidesAll s language cs ds) :
    (ds.map (·.outcome)).flatMap (·.evidenceIds) = (ds.flatMap (·.evidence)).map (·.id) := by
  induction h with
  | nil => rfl
  | cons hhead _ ih =>
    obtain ⟨v, -, rfl⟩ := hhead
    rw [List.map_cons, List.flatMap_cons, List.flatMap_cons, List.map_append, ih]
    rfl

/-- Every item has the identity of its criterion and a number. -/
theorem exists_makeId (h : e.DecidesAll s language cs ds) {item : Evidence}
    (hitem : item ∈ ds.flatMap (·.evidence)) :
    ∃ c ∈ cs, ∃ n, item.id = Evidence.makeId c.id n := by
  induction h with
  | nil => exact absurd hitem List.not_mem_nil
  | cons hhead _ ih =>
    obtain ⟨v, -, rfl⟩ := hhead
    rw [List.flatMap_cons, List.mem_append] at hitem
    rcases hitem with hitem | hitem
    · exact ⟨_, List.mem_cons_self, Evidence.exists_makeId_of_mem hitem⟩
    · obtain ⟨c, hc, n, hn⟩ := ih hitem
      exact ⟨c, List.mem_cons_of_mem _ hc, n, hn⟩

/-- Where no two criteria have the same id, no two items have the same identity. -/
theorem nodup_ids (h : e.DecidesAll s language cs ds) (hdistinct : (cs.map (·.id)).Nodup) :
    ((ds.flatMap (·.evidence)).map (·.id)).Nodup := by
  induction h with
  | nil => exact .nil
  | cons hhead hrest ih =>
    obtain ⟨v, -, rfl⟩ := hhead
    rw [List.map_cons, List.nodup_cons] at hdistinct
    rw [List.flatMap_cons, List.map_append, List.nodup_append']
    refine ⟨Evidence.nodup_ids_ofDrafts _ _ _, ih hdistinct.2, ?_⟩
    -- An item of another criterion has another identity.
    intro id hfirst hother
    obtain ⟨item, hitem, rfl⟩ := List.mem_map.1 hother
    obtain ⟨item', hitem', hsame⟩ := List.mem_map.1 hfirst
    obtain ⟨c', hc', n', hn'⟩ := exists_makeId hrest hitem
    obtain ⟨n, hn⟩ := Evidence.exists_makeId_of_mem hitem'
    rw [hn, hn', Evidence.makeId_inj] at hsame
    exact hdistinct.1 (hsame.1 ▸ List.mem_map_of_mem hc')

end DecidesAll

/-! ### The evaluation -/

/-- What has been decided for the criteria of a valid rubric and a valid snapshot. -/
structure Settles (e : Evaluator) (r : Rubric) (s : Snapshot) (language : String)
    (ds : List Decided) : Prop where
  valid : r.Valid e.registry
  flawless : s.flaw? = none
  decided : e.DecidesAll s (Text.normal language) r.criteria ds

/-- References are in order if they are those to the items and no two of these are the same. -/
theorem checkReferences_eq_ok {o : Outcome} {items : List Evidence}
    (h : o.references = items.map (·.id)) (hnodup : (items.map (·.id)).Nodup) :
    o.checkReferences items = .ok () := by
  refine Outcome.checkReferences_eq_ok_iff.2 fun item hitem => ?_
  -- Every item is referred to, and no more than once.
  rw [h]
  exact List.count_eq_one_of_mem hnodup (List.mem_map_of_mem hitem)

end Evaluator

end Scorecard
