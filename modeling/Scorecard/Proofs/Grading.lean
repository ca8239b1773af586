import Scorecard.Proofs.Breakdowns
import Scorecard.Proofs.Engine
import Scorecard.Proofs.Percentage

/-!
# Better statuses, better grades

The points of a rubric and those of one of its dimensions are sums over some of the criteria, and so
are the scores; both are added in the order of the rubric. Where every status in one outcome is at
least as good as in another, every score is, and so is every sum, every percentage and the grade.

* `Outcome.scoreOf`, `Rubric.pointsOf`: the scores and the points of some dimensions.
* `Outcome.Grades.get?_breakdowns`: what is published of a dimension.
* `ScoreOutput.AtMost`: nothing in one score is better than in another.
* `Rubric.publish_mono`: better statuses never make anything worse, and all percentages of a run
  lie between zero and a hundred.
-/

namespace Scorecard

open Binary64 Points

/-! ### Sums over dimensions -/

/-- The scores of the criteria of some dimensions, added to a start. -/
def Outcome.scoreOf (o : Outcome) (p : Dimension → Bool) (start : Float) : Float :=
  ((o.criteria.filter fun a => p a.dimension).map (·.score)).foldl (· + ·) start

/-- The points of the criteria of some dimensions. -/
def Rubric.pointsOf (r : Rubric) (p : Dimension → Bool) : Float :=
  total ((r.criteria.filter fun c => p c.dimension).map (·.maxPoints))

theorem Rubric.pointsOf_all (r : Rubric) : r.pointsOf (fun _ => true) = r.totalPoints := by
  unfold pointsOf
  rw [List.filter_true]
  rfl

section Sums

variable {registry : Registry} {r : Rubric} {o o' : Outcome} {p : Dimension → Bool} {start : Float}

/-- The points of valid criteria are amounts. -/
private theorem within_self_of_valid (hvalid : r.Valid registry) (p : Dimension → Bool) :
    ∀ x ∈ (r.criteria.filter fun c => p c.dimension).map (·.maxPoints), Within x x := by
  intro x hx
  obtain ⟨c, hc, rfl⟩ := List.mem_map.1 hx
  obtain ⟨q, hworth, hq⟩ := (hvalid.criteria c (List.mem_of_mem_filter hc)).exists_worth
  exact ⟨q, q, hworth, hworth, hq.le, le_rfl⟩

/-- The points of some dimensions are finite as those of all are. -/
private theorem isFinite_pointsOf (hvalid : r.Valid registry) (p : Dimension → Bool) :
    (r.pointsOf p).isFinite = true := by
  have hall := within_self_of_valid hvalid fun _ => true
  rw [List.filter_true] at hall
  -- A part of a sum of amounts is no greater than the whole sum, which a valid rubric keeps finite.
  have hsublist : ((r.criteria.filter fun c => p c.dimension).map (·.maxPoints)).Sublist
      (r.criteria.map (·.maxPoints)) := List.filter_sublist.map _
  have hfinite : r.totalPoints.isFinite = true := (isFinite_of_same hvalid.total).1
  obtain ⟨_, _, hworth, -⟩ := Within.foldl_sublist hsublist hall
    (within_of_zero worth_neg_zero worth_neg_zero) hfinite
  exact hworth.isFinite

theorem Rubric.Valid.pointsOf_pos (hvalid : r.Valid registry) {c : Criterion} (hc : c ∈ r.criteria)
    (hp : p c.dimension = true) : 0 < r.pointsOf p := by
  refine total_pos (within_self_of_valid hvalid p) (isFinite_pointsOf hvalid p)
    (List.mem_map_of_mem (List.mem_filter.2 ⟨hc, hp⟩)) (hvalid.criteria c hc).positive

/-- Sums over the same dimensions, where each amount stays within another one. -/
private theorem within_sums {α β : Type} {as : List α} {bs : List β} {dim : α → Dimension}
    {dim' : β → Dimension} {f : α → Float} {g : β → Float} {x y : Float}
    (h : List.Forall₂ (fun a b => dim a = dim' b ∧ Within (f a) (g b)) as bs)
    (p : Dimension → Bool) (hstart : Within x y)
    (hfinite : (((bs.filter fun b => p (dim' b)).map g).foldl (· + ·) y).isFinite = true) :
    Within (((as.filter fun a => p (dim a)).map f).foldl (· + ·) x)
      (((bs.filter fun b => p (dim' b)).map g).foldl (· + ·) y) := by
  -- Both lists lose the same positions, as paired elements are in one dimension.
  have hfilter := List.rel_filter (p := fun a => p (dim a)) (q := fun b => p (dim' b))
    (fun a b hab => by
      change p (dim a) = true ↔ p (dim' b) = true
      rw [hab.1]) h
  refine Within.foldl ?_ hstart hfinite
  rw [List.forall₂_map_left_iff, List.forall₂_map_right_iff]
  exact hfilter.imp fun a b hab => hab.2

namespace Outcome.Grades

/-- The scores lie between nothing and the points. -/
theorem within_pointsOf (h : o.Grades r) (hvalid : r.Valid registry) (p : Dimension → Bool)
    (hstart : Worth start 0) : Within (o.scoreOf p start) (r.pointsOf p) := by
  refine within_sums (List.Forall₂.flip (h.forall₂ hvalid fun c status ids hc => ?_)) p
    (within_of_zero hstart worth_neg_zero) (isFinite_pointsOf hvalid p)
  obtain ⟨q, hworth, hq⟩ := hc.exists_worth
  exact ⟨rfl, status.within_points hworth hq.le⟩

/-- The score of criteria of a valid rubric is finite. -/
private theorem isFinite_scoreOf (h : o.Grades r) (hvalid : r.Valid registry)
    (p : Dimension → Bool) (hstart : Worth start 0) : (o.scoreOf p start).isFinite = true := by
  obtain ⟨q, -, hworth, -⟩ := h.within_pointsOf hvalid p hstart
  exact hworth.isFinite

/-- Better statuses give no smaller scores. -/
private theorem forall₂_scores {cs : List Criterion} {as as' : List CriterionOutcome}
    (hcs : ∀ c ∈ cs, c.Valid registry)
    (h : List.Forall₂ (fun c a => ∃ status ids, a = c.graded status ids) cs as)
    (h' : List.Forall₂ (fun c a => ∃ status ids, a = c.graded status ids) cs as')
    (hle : List.Forall₂ (fun a a' => a.status ≤ a'.status) as as') :
    List.Forall₂ (fun a a' => a.dimension = a'.dimension ∧ Within a.score a'.score) as as' := by
  induction h generalizing as' with
  | nil =>
    cases h'
    exact .nil
  | cons hhead _ ih =>
    obtain ⟨hc, hrest⟩ := List.forall_mem_cons.1 hcs
    cases h' with
    | cons hhead' htail' =>
      cases hle with
      | cons hstatus hle =>
        -- Both outcomes are of one criterion, so that only the statuses differ.
        obtain ⟨status, ids, rfl⟩ := hhead
        obtain ⟨status', ids', rfl⟩ := hhead'
        obtain ⟨q, hworth, hq⟩ := hc.exists_worth
        exact .cons ⟨rfl, Status.points_mono hstatus hworth hq.le⟩ (ih hrest htail' hle)

theorem scoreOf_mono (h : o.Grades r) (h' : o'.Grades r) (hvalid : r.Valid registry)
    (hle : List.Forall₂ (fun a a' => a.status ≤ a'.status) o.criteria o'.criteria)
    (p : Dimension → Bool) (hstart : Worth start 0) :
    Within (o.scoreOf p start) (o'.scoreOf p start) :=
  within_sums (forall₂_scores hvalid.criteria h.criteria h'.criteria hle) p
    (within_of_zero hstart hstart) (h'.isFinite_scoreOf hvalid p hstart)

/-- Each outcome is one of a criterion. -/
theorem exists_criterion (h : o.Grades r) {a : CriterionOutcome} (ha : a ∈ o.criteria) :
    ∃ c ∈ r.criteria, ∃ status ids, a = c.graded status ids :=
  h.criteria.exists_of_mem_right ha

/-- Where every criterion is met, the scores are all of the points. -/
theorem pointsOf_within (h : o.Grades r) (hvalid : r.Valid registry)
    (hmet : ∀ a ∈ o.criteria, a.status = .met) (p : Dimension → Bool) (hstart : Worth start 0) :
    Within (r.pointsOf p) (o.scoreOf p start) := by
  -- The sums go the other way round here, from the points to the scores.
  have hcriteria : List.Forall₂ (fun a c => a.status = .met →
      c.dimension = a.dimension ∧ Within c.maxPoints a.score) o.criteria r.criteria := by
    refine List.Forall₂.flip (h.forall₂ hvalid fun c status ids hc => ?_)
    rintro rfl
    obtain ⟨q, hworth, hq⟩ := hc.exists_worth
    exact ⟨rfl, Status.met.within_points hworth hq.le⟩
  have hboth := (List.forall₂_and_left _ _).2 ⟨hmet, hcriteria⟩
  exact within_sums (List.Forall₂.flip (hboth.imp fun a c hac => hac.2 hac.1)) p
    (within_of_zero worth_neg_zero hstart) (h.isFinite_scoreOf hvalid p hstart)

/-- Where no criterion is met, the scores are nothing. -/
theorem worth_scoreOf_unmet (h : o.Grades r) (hunmet : ∀ a ∈ o.criteria, a.status = .unmet)
    (p : Dimension → Bool) (hstart : Worth start 0) : Worth (o.scoreOf p start) 0 := by
  refine worth_foldl_zero (fun x hx => ?_) hstart
  obtain ⟨a, ha, rfl⟩ := List.mem_map.1 hx
  have hmem := List.mem_of_mem_filter ha
  obtain ⟨c, -, status, ids, rfl⟩ := h.exists_criterion hmem
  have hstatus : status = .unmet := hunmet _ hmem
  rw [hstatus]
  exact worth_zero

end Outcome.Grades

end Sums

/-! ### What is published of a dimension -/

/-- What is published of a dimension: the sums over its criteria, and nothing of one that has
none. -/
theorem Outcome.Grades.get?_breakdowns {r : Rubric} {o : Outcome} (h : o.Grades r)
    (d : Dimension) :
    (r.breakdowns o).get? d = none ∧ d ∉ r.dimensions ∨
      ∃ b, (r.breakdowns o).get? d = some b ∧ d ∈ r.dimensions ∧ b.score = o.scoreOf (· = d) 0 ∧
        b.max = r.pointsOf (· = d) ∧ b.percentage = percentage b.score b.max := by
  -- No outcome is in a dimension that has no criterion.
  have hlisted : ∀ a ∈ o.criteria, a.dimension ∈ r.dimensions := by
    intro a ha
    obtain ⟨c, hc, status, ids, rfl⟩ := h.exists_criterion ha
    exact Rubric.mem_dimensions_iff.2 ⟨c, hc, rfl⟩
  rw [Rubric.get?_breakdowns hlisted]
  split
  · next hd =>
    obtain ⟨hscore, hmax⟩ := Breakdown.score_recordAll (.empty (r.weight d))
      (o.criteria.filter (·.dimension = d))
    exact .inr ⟨_, rfl, hd, hscore, hmax, rfl⟩
  · next hd => exact .inl ⟨rfl, hd⟩

/-! ### Scores -/

/-- What is published of a dimension is no better than something else. -/
structure Breakdown.AtMost (b b' : Breakdown) : Prop where
  max : b.max = b'.max
  score : b.score ≤ b'.score
  percentage : b.percentage ≤ b'.percentage

/-- Nothing in one score is better than in the other, overall or of a dimension. -/
structure ScoreOutput.AtMost (out out' : ScoreOutput) : Prop where
  total : out.totalScore ≤ out'.totalScore
  percentage : out.percentage ≤ out'.percentage
  grade : out.grade ≤ out'.grade
  breakdowns : ∀ d, Option.Rel Breakdown.AtMost (out.breakdowns.get? d) (out'.breakdowns.get? d)

/-- Something holds of every percentage in a score. -/
structure ScoreOutput.Percentages (out : ScoreOutput) (p : Float → Prop) : Prop where
  total : p out.percentage
  breakdowns : ∀ d b, out.breakdowns.get? d = some b → p b.percentage

namespace Rubric

variable {registry : Registry} {r : Rubric} {o o' : Outcome}

/-- The total is the score of all criteria; the sum starts from the negative zero. -/
private theorem totalScore_eq (h : o.Grades r) :
    o.totalScore = o.scoreOf (fun _ => true) (-0.0) := by
  unfold Outcome.scoreOf
  rw [List.filter_true, h.sums]
  rfl

/-- The percentage in the score is that of all criteria. -/
private theorem percentage_score (h : o.Grades r) (m : Manifest) :
    (r.score o m).percentage
      = percentage (o.scoreOf (fun _ => true) (-0.0)) (r.pointsOf fun _ => true) := by
  have hmax : o.maxScore = r.totalPoints := by
    rw [h.sums]
    rfl
  change percentage o.totalScore o.maxScore = _
  rw [totalScore_eq h, hmax, pointsOf_all]

/-- A valid rubric has points to be given. -/
private theorem pos_totalPoints (hvalid : r.Valid registry) : 0 < r.pointsOf fun _ => true := by
  obtain ⟨c, hc⟩ := List.exists_mem_of_ne_nil _ hvalid.nonempty
  exact hvalid.pointsOf_pos hc rfl

/-- Every dimension of a valid rubric has points to be given. -/
private theorem pos_of_mem_dimensions (hvalid : r.Valid registry) {d : Dimension}
    (hd : d ∈ r.dimensions) : 0 < r.pointsOf (· = d) := by
  obtain ⟨c, hc, hdim⟩ := mem_dimensions_iff.1 hd
  exact hvalid.pointsOf_pos hc (decide_eq_true hdim)

/-- Every percentage is that of a sum of scores in the sum of the same points. -/
private theorem percentages_score (h : o.Grades r) (hvalid : r.Valid registry) (m : Manifest)
    {p : Float → Prop} (hp : ∀ q start, Worth start 0 → 0 < r.pointsOf q →
      p (percentage (o.scoreOf q start) (r.pointsOf q))) : (r.score o m).Percentages p := by
  constructor
  · rw [percentage_score h]
    exact hp _ _ worth_neg_zero (pos_totalPoints hvalid)
  · intro d b hb
    change (r.breakdowns o).get? d = some b at hb
    rcases h.get?_breakdowns d with ⟨hnone, -⟩ | ⟨b', hb', hd, hscore, hmax, hpercentage⟩
    · rw [hnone] at hb
      exact nomatch hb
    · -- A dimension that is published has a criterion, and so points to be divided by.
      cases hb.symm.trans hb'
      rw [hpercentage, hscore, hmax]
      exact hp _ _ worth_zero (pos_of_mem_dimensions hvalid hd)

/-- Better statuses make no score worse. -/
private theorem atMost_score (h : o.Grades r) (h' : o'.Grades r) (hvalid : r.Valid registry)
    (hle : List.Forall₂ (fun a a' => a.status ≤ a'.status) o.criteria o'.criteria)
    (m m' : Manifest) : (r.score o m).AtMost (r.score o' m') := by
  -- The overall score and that of a dimension are sums that only get greater.
  have hscore {start : Float} (p : Dimension → Bool) (hstart : Worth start 0) :=
    h.scoreOf_mono h' hvalid hle p hstart
  have hpercentage {start : Float} (p : Dimension → Bool) (hstart : Worth start 0)
      (hpos : 0 < r.pointsOf p) :=
    percentage_mono (hscore p hstart) (h'.within_pointsOf hvalid p hstart) hpos
  have hoverall : Within (r.score o m).percentage (r.score o' m').percentage := by
    rw [percentage_score h, percentage_score h']
    exact hpercentage _ worth_neg_zero (pos_totalPoints hvalid)
  constructor
  · change o.totalScore ≤ o'.totalScore
    rw [totalScore_eq h, totalScore_eq h']
    exact (hscore _ worth_neg_zero).le
  · exact hoverall.le
  · obtain ⟨_, _, hworth, hworth', -, hle⟩ := hoverall
    exact Letter.ofPercentage_mono hworth hworth' hle
  · intro d
    change Option.Rel _ ((r.breakdowns o).get? d) ((r.breakdowns o').get? d)
    rcases h.get?_breakdowns d with ⟨hnone, hd⟩ | ⟨b, hb, hd, hs, hmax, hp⟩
    · rcases h'.get?_breakdowns d with ⟨hnone', -⟩ | ⟨b', -, hd', -⟩
      · rw [hnone, hnone']
        exact .none
      · exact absurd hd' hd
    · rcases h'.get?_breakdowns d with ⟨-, hd'⟩ | ⟨b', hb', -, hs', hmax', hp'⟩
      · exact absurd hd hd'
      · rw [hb, hb']
        refine .some ⟨hmax.trans hmax'.symm, ?_, ?_⟩
        · rw [hs, hs']
          exact (hscore _ worth_zero).le
        · rw [hp, hp', hs, hs', hmax, hmax']
          exact (hpercentage _ worth_zero (pos_of_mem_dimensions hvalid hd)).le

/-- All percentages lie between zero and a hundred. -/
private theorem inPercent_score (h : o.Grades r) (hvalid : r.Valid registry) (m : Manifest) :
    (r.score o m).Percentages fun x => 0 ≤ x ∧ x ≤ 100 := by
  refine percentages_score h hvalid m fun p start hstart hpos => ?_
  have hwithin := percentage_within (h.within_pointsOf hvalid p hstart) hpos
  exact ⟨hwithin.nonneg, hwithin.le⟩

/-- The outcome in which criteria get statuses by their own properties, without evidence. -/
def graded (r : Rubric) (status : Criterion → Status) : Outcome :=
  .ofCriteria (r.criteria.map fun c => c.graded (status c) []) r.totalPoints

theorem grades_graded (r : Rubric) (status : Criterion → Status) : (r.graded status).Grades r :=
  r.grades_ofCriteria status fun _ => []

/-- Of two outcomes that come from statuses, where every status in the second is at least as good,
nothing that is published of the second is worse. If all criteria are met, every percentage is a
hundred and the grade is an A; if none is, every percentage is zero and the grade is an F. So the
percentages of a run lie between zero and a hundred. -/
theorem publish_mono {registry : Registry} {r : Rubric} (h : r.issues registry = []) :
    (∀ o o', o.Grades r → o'.Grades r →
      List.Forall₂ (fun a a' => a.status ≤ a'.status) o.criteria o'.criteria →
      ∀ m m' j j', ∃ out out', (r.publish o m).result j = .ok out ∧
        (r.publish o' m').result j' = .ok out' ∧ out.AtMost out') ∧
    (∀ o, o.Grades r → (∀ a ∈ o.criteria, a.status = .met) → ∀ m j, ∃ out,
      (r.publish o m).result j = .ok out ∧ out.Percentages (· == 100) ∧ out.grade = .a) ∧
    (∀ o, o.Grades r → (∀ a ∈ o.criteria, a.status = .unmet) → ∀ m j, ∃ out,
      (r.publish o m).result j = .ok out ∧ out.Percentages (· == 0) ∧ out.grade = .f) ∧
    ∀ (E : Engine), E.registry = registry → ∀ keep s v j report,
      (E.outcome keep r s v j).1 = .ok report →
      report.output.Percentages fun x => 0 ≤ x ∧ x ≤ 100 := by
  have hvalid := issues_eq_nil_iff.1 h
  refine ⟨?_, ?_, ?_, ?_⟩
  · intro o o' ho ho' hle m m' j j'
    exact ⟨_, _, (ho.fits hvalid).result_publish m j, (ho'.fits hvalid).result_publish m' j',
      atMost_score ho ho' hvalid hle m m'⟩
  · intro o ho hmet m j
    have hfull {start : Float} (p : Dimension → Bool) (hstart : Worth start 0)
        (hpos : 0 < r.pointsOf p) : Worth (percentage (o.scoreOf p start) (r.pointsOf p)) 100 :=
      percentage_full (ho.within_pointsOf hvalid p hstart)
        (ho.pointsOf_within hvalid hmet p hstart) hpos
    refine ⟨_, (ho.fits hvalid).result_publish m j, ?_, ?_⟩
    · exact percentages_score ho hvalid m fun p start hstart hpos =>
        ((hfull p hstart hpos).beq_iff (worth_literal 100)).2 rfl
    · have hworth : Worth (r.score o m).percentage 100 := by
        rw [percentage_score ho]
        exact hfull _ worth_neg_zero (pos_totalPoints hvalid)
      exact Letter.ofPercentage_hundred hworth
  · intro o ho hunmet m j
    have hnone {start : Float} (p : Dimension → Bool) (hstart : Worth start 0)
        (hpos : 0 < r.pointsOf p) : Worth (percentage (o.scoreOf p start) (r.pointsOf p)) 0 :=
      percentage_none (ho.worth_scoreOf_unmet hunmet p hstart)
        (ho.within_pointsOf hvalid p hstart) hpos
    refine ⟨_, (ho.fits hvalid).result_publish m j, ?_, ?_⟩
    · exact percentages_score ho hvalid m fun p start hstart hpos =>
        ((hnone p hstart hpos).beq_iff worth_zero).2 rfl
    · have hworth : Worth (r.score o m).percentage 0 := by
        rw [percentage_score ho]
        exact hnone _ worth_neg_zero (pos_totalPoints hvalid)
      exact Letter.ofPercentage_zero hworth
  · intro E hE keep s v j report hreport
    subst hE
    -- Only a run whose evaluation has an outcome comes to a report.
    cases hresult : (E.evaluator.evaluate r s s.language).result j with
    | error error =>
      rw [Engine.outcome_of_error hresult] at hreport
      exact nomatch hreport
    | ok ev =>
      obtain ⟨ds, hsettles, rfl⟩ := Evaluator.evaluate_eq_ok_iff.1 hresult
      obtain ⟨m, v', -, -, -, houtcome⟩ := Engine.outcome_of_ok keep hresult v j
      rw [houtcome] at hreport
      cases hreport
      exact inPercent_score hsettles.grades hvalid m

/-- In the standard rubric, meeting half of every criterion is no better than meeting all. -/
theorem publish_mono_standard :
    standard.issues .builtin = [] ∧ ∃ out out',
      (standard.publish (standard.graded fun _ => .partly) .empty).result .empty = .ok out ∧
      (standard.publish (standard.graded fun _ => .met) .empty).result .empty = .ok out' ∧
      out.AtMost out' := by
  refine ⟨issues_standard, ?_⟩
  refine (publish_mono issues_standard).1 _ _ (standard.grades_graded _) (standard.grades_graded _)
    ?_ .empty .empty .empty .empty
  have hcriteria (status : Criterion → Status) : (standard.graded status).criteria
      = standard.criteria.map fun c => c.graded (status c) [] := rfl
  rw [hcriteria, hcriteria, List.forall₂_map_left_iff, List.forall₂_map_right_iff,
    List.forall₂_same]
  exact fun _ _ => Status.le_met _

end Rubric

end Scorecard
