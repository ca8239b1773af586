import Scorecard.Proofs.EvaluationCourses
import Scorecard.Proofs.Totality

/-!
# What an evaluation answers

The answer of an evaluation goes by the order of the rubric and not by that in which the criteria
get done. If criteria fail, the error is that of the first of them. Otherwise every criterion has
its place in the outcome; its score is the one that the status fixes, whatever the rule has put in
its verdict, and its items are the drafts of the rule, numbered from one.

* `Evaluation.Records`: what an evaluation says of one criterion.
* `Evaluator.Covers`: an evaluation that says this of all criteria.
* `Evaluator.evaluate_answers`: the answer of an evaluation, by a crew or without.
-/

namespace Scorecard

/-- What an evaluation says of a criterion and the verdict of its rule. -/
structure Evaluation.Records (ev : Evaluation) (c : Criterion) (v : Verdict)
    (o : CriterionOutcome) : Prop where
  id : o.criterionId = c.id
  dimension : o.dimension = c.dimension
  maxPoints : o.maxPoints = c.maxPoints
  status : o.status = v.status
  /-- The score is the one that the status fixes, whatever stands in the verdict. -/
  score : o.score = v.status.points c.maxPoints
  /-- The criterion refers to its items, which are numbered from one. -/
  evidenceIds : o.evidenceIds = (List.range' 1 v.evidence.length).map (Evidence.makeId c.id)
  /-- The items of the criterion are the drafts, in their order. -/
  items : ev.evidence.filter (·.criterionId = c.id)
    = v.evidence.mapIdx fun i draft => .ofDraft c.id c.dimension (i + 1) draft

namespace Evaluator

variable {e : Evaluator} {r : Rubric} {s : Snapshot} {language : String} {cs : List Criterion}
  {ds : List Decided}

/-- An evaluation that has a verdict for every criterion of a rubric. -/
structure Covers (e : Evaluator) (r : Rubric) (s : Snapshot) (language : String)
    (ev : Evaluation) : Prop where
  /-- The criteria stand in the order of the rubric. -/
  criteria : List.Forall₂
    (fun c o => ∃ v, e.Decides s (Text.normal language) c v ∧ ev.Records c v o)
    r.criteria ev.outcome.criteria
  /-- The scores are added from left to right. -/
  total : ev.outcome.totalScore = (ev.outcome.criteria.map (·.score)).foldl (· + ·) (-0.0)
  max : ev.outcome.maxScore = r.totalPoints
  /-- The criteria refer to all items, in their order. -/
  references : ev.outcome.criteria.flatMap (·.evidenceIds) = ev.evidence.map (·.id)

/-- What comes out of an evaluation of a rubric and a snapshot against which there is nothing to be
said. -/
structure Answers (e : Evaluator) (r : Rubric) (s : Snapshot) (language : String)
    (result : Except EvaluationError Evaluation) : Prop where
  /-- The error is that of the first criterion that fails. -/
  first : ∀ {front back : List Criterion} {c : Criterion} {error : EvaluationError},
    r.criteria = front ++ c :: back →
    (∀ c' ∈ front, ∀ error', ¬ e.Fails s (Text.normal language) c' error') →
    e.Fails s (Text.normal language) c error → result = .error error
  /-- If none fails, every criterion has its place in the outcome. -/
  complete : (∀ c ∈ r.criteria, ∀ error, ¬ e.Fails s (Text.normal language) c error) →
    ∃ ev, result = .ok ev ∧ e.Covers r s language ev

/-! ### The items of a criterion -/

/-- The evidence of a verdict is about the criterion. -/
private theorem criterionId_of_mem {c : Criterion} {v : Verdict} {item : Evidence}
    (h : item ∈ (accept c v).evidence) : item.criterionId = c.id := by
  obtain ⟨⟨draft, i⟩, -, rfl⟩ := List.mem_map.1 h
  rfl

/-- Where no item is about a criterion, none is left when all others are taken out. -/
private theorem filter_criterionId_eq_nil {items : List Evidence} {id : String}
    (h : ∀ item ∈ items, item.criterionId ≠ id) : items.filter (·.criterionId = id) = [] :=
  List.filter_eq_nil_iff.2 fun item hitem => by simpa using h item hitem

/-- All evidence is about one of the criteria decided. -/
private theorem DecidesAll.criterionId_mem (h : e.DecidesAll s language cs ds) {item : Evidence}
    (hitem : item ∈ ds.flatMap (·.evidence)) : item.criterionId ∈ cs.map (·.id) := by
  induction h with
  | nil => exact absurd hitem List.not_mem_nil
  | cons hhead _ ih =>
    obtain ⟨v, -, rfl⟩ := hhead
    rw [List.flatMap_cons, List.mem_append] at hitem
    rw [List.map_cons, List.mem_cons]
    rcases hitem with hitem | hitem
    · exact .inl (criterionId_of_mem hitem)
    · exact .inr (ih hitem)

/-- Where no two criteria have the same id, the items with the id of a criterion are those decided
for it, also behind items of other criteria. -/
theorem DecidesAll.filter_items (h : e.DecidesAll s language cs ds)
    (hdistinct : (cs.map (·.id)).Nodup) (others : List Evidence)
    (hothers : ∀ item ∈ others, item.criterionId ∉ cs.map (·.id)) :
    List.Forall₂ (fun c d => (∃ v, e.Decides s language c v ∧ d = accept c v) ∧
      (others ++ ds.flatMap (·.evidence)).filter (·.criterionId = c.id) = d.evidence) cs ds := by
  induction h generalizing others with
  | nil => exact .nil
  | @cons c d cs ds hhead hrest ih =>
    obtain ⟨v, hv, rfl⟩ := hhead
    rw [List.map_cons, List.nodup_cons] at hdistinct
    have hown : ∀ item ∈ (accept c v).evidence, item.criterionId = c.id := fun _ =>
      criterionId_of_mem
    refine .cons ⟨⟨v, hv, rfl⟩, ?_⟩ ?_
    · -- Neither in front of the items of this criterion nor behind them has an item its id.
      have hbefore : others.filter (·.criterionId = c.id) = [] :=
        filter_criterionId_eq_nil fun item hitem hid =>
          hothers item hitem (hid ▸ List.mem_cons_self)
      have hafter : (ds.flatMap (·.evidence)).filter (·.criterionId = c.id) = [] :=
        filter_criterionId_eq_nil fun item hitem hid =>
          hdistinct.1 (hid ▸ DecidesAll.criterionId_mem hrest hitem)
      rw [List.flatMap_cons, List.filter_append, List.filter_append, hbefore, hafter,
        List.filter_eq_self.2 fun item hitem => decide_eq_true (hown item hitem),
        List.nil_append, List.append_nil]
    · rw [List.flatMap_cons, ← List.append_assoc]
      -- The items of this criterion are items of another one to those that follow.
      refine ih hdistinct.2 _ fun item hitem hid => ?_
      rcases List.mem_append.1 hitem with hitem | hitem
      · exact hothers item hitem (List.mem_cons_of_mem _ hid)
      · exact hdistinct.1 (hown item hitem ▸ hid)

/-- What is assembled of decisions on all criteria covers the rubric. -/
private theorem Settles.covers (h : e.Settles r s language ds) :
    e.Covers r s language (assemble r ds) := by
  have hitems := DecidesAll.filter_items h.decided h.valid.distinct [] fun _ hmem =>
    absurd hmem List.not_mem_nil
  refine ⟨List.forall₂_map_right_iff.2 (hitems.imp fun c d hd => ?_), rfl, rfl,
    h.decided.references⟩
  obtain ⟨⟨v, hv, rfl⟩, hfilter⟩ := hd
  -- Of the verdict only the status and the drafts have been looked at.
  refine ⟨v, hv, rfl, rfl, rfl, rfl, rfl, Evidence.ids_ofDrafts c.id c.dimension v.evidence, ?_⟩
  refine hfilter.trans ?_
  rw [List.mapIdx_eq_zipIdx_map]
  rfl

/-! ### The answer -/

/-- Input that is admitted gets an answer: the first criterion that fails, or what is assembled of
all decisions. -/
private theorem answers_evaluate (h : e.Admits r s) (language : String) (j : Journal) :
    e.Answers r s language ((e.evaluate r s language).result j) where
  first hcriteria hfront hfails := by
    obtain ⟨ds, hds⟩ := exists_decidesAll_of_not_fails hfront
    exact (comesTo_evaluate_of_fails h hcriteria hds hfails).result j
  complete hnone := by
    obtain ⟨ds, hds⟩ := exists_decidesAll_of_not_fails hnone
    have hsettles : e.Settles r s language ds :=
      ⟨Rubric.issues_eq_nil_iff.1 h.rubric, h.snapshot, hds⟩
    exact ⟨_, (comesTo_evaluate_of_settles hsettles).result j, hsettles.covers⟩

/-- If there is nothing to be said against rubric and snapshot, an evaluation ends with the error of
the first criterion that fails in the order of the rubric, and with an outcome for all criteria if
none fails. It does not matter in which order a crew gets done with them. -/
theorem evaluate_answers {e : Evaluator} {r : Rubric} {s : Snapshot} (language : String)
    (j : Journal) (hrubric : r.issues e.registry = []) (hsnapshot : s.flaw? = none) :
    e.Answers r s language ((e.evaluate r s language).result j) ∧
      ∀ order, e.Manned (.turns order) r s language →
        e.Answers r s language ((e.evaluateWith (.turns order) r s language).result j) := by
  have hanswers := answers_evaluate ⟨hrubric, hsnapshot⟩ language j
  refine ⟨hanswers, fun order hmanned => ?_⟩
  rw [evaluateWith_eq_evaluate hmanned]
  exact hanswers

end Evaluator

/-! ### Two criteria that fail -/

/-- A rule that judges the first criterion, with a score that is a little off. It has no evidence
for the second one and does not judge any other. -/
def Rule.fickle : Rule where
  name := "fickle"
  validate _ := .ok ()
  allowsPartial _ := false
  judge c _ _ :=
    if c.criterionId = "a" then
      .ok ⟨.met, c.maxPoints + 5e-10, [⟨.high, "found", .null⟩, ⟨.low, "found again", .null⟩]⟩
    else if c.criterionId = "b" then .ok (.ofStatus c .unmet [])
    else .error (.invalidInput "no such criterion")

/-- Three criteria, of which the first one does not fail. -/
def Rubric.fickle : Rubric :=
  ⟨"1", .empty, [⟨"a", .testing, 40, "fickle", none, .empty, .empty⟩,
    ⟨"b", .testing, 30, "fickle", none, .empty, .empty⟩,
    ⟨"c", .documentation, 30, "fickle", none, .empty, .empty⟩], []⟩

/-- There is no evidence for the second one. -/
theorem Evaluator.fails_fickle {e : Evaluator} (h : e.registry = .register .empty .fickle) :
    e.Fails (.bare "Rust") (Text.normal "Rust")
      ⟨"b", .testing, 30, "fickle", none, .empty, .empty⟩ (.missingEvidence "b") := by
  have hrule : e.registry.get? "fickle" = some .fickle := by
    rw [h]
    rfl
  have hreject : Rejects ⟨"b", .testing, 30, "fickle", none, .empty, .empty⟩ .fickle .empty
      (.ofStatus ⟨"b", .testing, 30, "rust"⟩ .unmet []) (.missingEvidence "b") :=
    .missingEvidence (by decide +kernel) (fun h => nomatch h) rfl
  exact .rejected hrule (by rfl) hreject

/-- Whoever gets done first, the error is that of the second criterion. -/
theorem Evaluator.evaluate_answers_fickle :
    let e := Evaluator.ofRegistry (.register .empty .fickle)
    let order := [2, 1, 2, 0, 1, 0]
    Rubric.fickle.issues e.registry = [] ∧ (Snapshot.bare "Rust").flaw? = none ∧
      e.Manned (.turns order) .fickle (.bare "Rust") "Rust" ∧
      (e.evaluate .fickle (.bare "Rust") "Rust").result .empty = .error (.missingEvidence "b") ∧
      (e.evaluateWith (.turns order) .fickle (.bare "Rust") "Rust").result .empty
        = .error (.missingEvidence "b") := by
  intro e order
  have hissues : Rubric.fickle.issues e.registry = [] := by decide +kernel
  have hflaw : (Snapshot.bare "Rust").flaw? = none := by decide
  have hmanned : e.Manned (.turns order) .fickle (.bare "Rust") "Rust" := by
    unfold Evaluator.Manned Crew.Finishes
    decide +kernel
  obtain ⟨hanswers, hwith⟩ := evaluate_answers "Rust" .empty hissues hflaw
  have hfirst : ∀ c ∈ Rubric.fickle.criteria.take 1, ∀ error,
      ¬ e.Fails (.bare "Rust") (Text.normal "Rust") c error := by
    intro c hc error hfails
    have hok : ∀ c ∈ Rubric.fickle.criteria.take 1,
        (e.decide (.bare "Rust") (Text.normal "Rust") c).isOk = true := by decide +kernel
    have hc := hok c hc
    rw [decide_eq_error_iff.2 hfails] at hc
    exact nomatch hc
  have hsecond := fails_fickle (e := e) rfl
  exact ⟨hissues, hflaw, hmanned, hanswers.first rfl hfirst hsecond,
    (hwith order hmanned).first rfl hfirst hsecond⟩

end Scorecard
