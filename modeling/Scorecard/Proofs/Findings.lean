import Mathlib.Computability.RegularExpressions
import Scorecard.Proofs.Rubric

/-!
# What is found wrong with a rubric

The issues of a rubric are collected in one pass over its criteria, its overrides and its weights.
Nothing that is wrong hides anything else: how often an issue is listed can be read off the rubric
without regard to the order in which things are looked at. A criterion is at fault on its own, so
that its issues are counted by criteria; only an id that stands `k` times is reported `k - 1` times.

* `mem_matches'_idPattern`: the form of an id as a regular expression.
* `Criterion.isAtFault`: a criterion has an issue, whatever else is wrong.
* `Rubric.faults`: how often a rubric has an issue.
* `Rubric.issues_account`: a rubric without issues is valid, and each issue is listed as often as
  the rubric has it.
-/

namespace Scorecard

/-! ### The form of an id -/

/-- One of the characters. -/
def oneOf (cs : List Char) : RegularExpression Char := (cs.map .char).sum

/-- The characters an id may start with. -/
def idStarts : List Char :=
  ['a', 'b', 'c', 'd', 'e', 'f', 'g', 'h', 'i', 'j', 'k', 'l', 'm', 'n', 'o', 'p', 'q', 'r', 's',
    't', 'u', 'v', 'w', 'x', 'y', 'z', '0', '1', '2', '3', '4', '5', '6', '7', '8', '9']

/-- The form of an id, `[a-z0-9][a-z0-9_-]*`. -/
def idPattern : RegularExpression Char := oneOf idStarts * (oneOf (idStarts ++ ['_', '-'])).star

/-- One of several characters stands by itself. -/
private theorem mem_matches'_oneOf {cs : List Char} {w : List Char} :
    w ∈ (oneOf cs).matches' ↔ ∃ c ∈ cs, w = [c] := by
  unfold oneOf
  induction cs with
  | nil => simp [Language.notMem_zero]
  | cons c cs ih =>
    rw [List.map_cons, List.sum_cons, RegularExpression.matches'_add, Language.mem_add, ih,
      RegularExpression.matches'_char]
    simp only [List.mem_cons, exists_eq_or_imp]
    rfl

/-- The characters listed are the small letters and the digits. -/
private theorem mem_idStarts {c : Char} : c ∈ idStarts ↔ isIdStart c = true := by
  have hascii : ∀ n < 128, decide (Char.ofNat n ∈ idStarts) = isIdStart (Char.ofNat n) := by
    decide +kernel
  by_cases h : c.toNat < 128
  · have := hascii c.toNat h
    rw [Char.ofNat_toNat] at this
    rw [← this, decide_eq_true_iff]
  · -- Beyond the first 128 characters there are none of either kind.
    have hlisted : idStarts.all (fun d => decide (d.toNat < 128)) = true := by decide +kernel
    have hstart : isIdStart c = true → c.toNat < 128 := by
      intro hc
      simp only [isIdStart, Bool.or_eq_true, Bool.and_eq_true, decide_eq_true_eq] at hc
      rcases hc with ⟨-, hle⟩ | ⟨-, hle⟩
      · exact Nat.lt_of_le_of_lt (Char.le_def.1 hle) (by decide)
      · exact Nat.lt_of_le_of_lt (Char.le_def.1 hle) (by decide)
    exact ⟨fun hc => absurd (of_decide_eq_true (List.all_eq_true.1 hlisted c hc)) h,
      fun hc => absurd (hstart hc) h⟩

/-- An id is a text that matches the pattern from its first character to its last. -/
theorem mem_matches'_idPattern {id : String} :
    id.toList ∈ idPattern.matches' ↔ isCriterionId id = true := by
  have hchar {c : Char} : c ∈ idStarts ++ ['_', '-'] ↔ isIdChar c = true := by
    simp [isIdChar, mem_idStarts, or_assoc]
  unfold idPattern isCriterionId
  rw [RegularExpression.matches'_mul, RegularExpression.matches'_star, Language.mem_mul]
  constructor
  · rintro ⟨first, hfirst, rest, hrest, hid⟩
    obtain ⟨c, hc, rfl⟩ := mem_matches'_oneOf.1 hfirst
    obtain ⟨words, rfl, hwords⟩ := Language.mem_kstar.1 hrest
    rw [← hid, List.singleton_append]
    simp only [Bool.and_eq_true, List.all_eq_true, List.mem_flatten]
    refine ⟨mem_idStarts.1 hc, ?_⟩
    rintro d ⟨word, hword, hd⟩
    obtain ⟨d', hd', rfl⟩ := mem_matches'_oneOf.1 (hwords word hword)
    rw [List.mem_singleton] at hd
    exact hchar.1 (hd ▸ hd')
  · cases id.toList with
    | nil => exact fun h => nomatch h
    | cons c rest =>
      intro h
      obtain ⟨hc, hrest⟩ := Bool.and_eq_true_iff.1 h
      refine ⟨[c], mem_matches'_oneOf.2 ⟨c, mem_idStarts.2 hc, rfl⟩, rest, ?_, rfl⟩
      -- Each of the further characters is a word of its own.
      refine Language.mem_kstar.2 ⟨rest.map fun d => [d], (List.flatMap_singleton' rest).symm, ?_⟩
      intro word hword
      obtain ⟨d, hd, rfl⟩ := List.mem_map.1 hword
      exact mem_matches'_oneOf.2 ⟨d, hchar.2 (List.all_eq_true.1 hrest d hd), rfl⟩

/-! ### What can be wrong -/

namespace Criterion

/-- What the criterion's rule says against some parameters. There is nothing to be said against them
by a rule that is not known. -/
def objection? (c : Criterion) (registry : Registry) (params : Params) : Option String :=
  match registry.get? c.rule with
  | none => none
  | some rule =>
    match rule.validate params with
    | .ok () => none
    | .error e => some e.message

/-- Whether the criterion has the issue, whatever else is wrong with the rubric. -/
def isAtFault (c : Criterion) (registry : Registry) : RubricIssue → Bool
  | .invalidCriterionId id => c.id = id && !isCriterionId id
  | .nonPositivePoints id points =>
    c.id = id && c.maxPoints = points && !(points.isFinite && decide (0 < points))
  | .unknownRule id rule => c.id = id && c.rule = rule && (registry.get? rule).isNone
  | .invalidParams id none reason =>
    c.id = id && c.objection? registry c.params = some reason
  | .invalidParams id (some language) reason =>
    c.id = id && decide (language ∈ c.overrides.keys) &&
      c.objection? registry (c.effectiveParams language) = some reason
  | _ => false

end Criterion

/-- How often a rubric has an issue. What is wrong with a criterion is counted once for each
criterion that has it, and an id that stands several times once for each time after the first. -/
def Rubric.faults (r : Rubric) (registry : Registry) : RubricIssue → Nat
  | .emptyRubric => if r.criteria = [] then 1 else 0
  | .duplicateCriterion id => r.criteria.countP (·.id = id) - 1
  | .overrideForUnknownCriterion language id => r.danglingOverrides.count (language, id)
  | .unknownDimension name =>
    if name ∈ r.declaredWeights.keys ∧ Dimension.ofKey? name = none then 1 else 0
  | .weightMismatch d declared derived =>
    if r.declaredWeights.get? d.key = some declared ∧ derived = r.weight d ∧
      Points.same declared derived = false then 1 else 0
  | .totalMismatch expected actual =>
    if r.criteria ≠ [] ∧ expected = fullPoints ∧ actual = r.totalPoints ∧
      Points.same actual expected = false then 1 else 0
  | issue => r.criteria.countP (·.isAtFault registry issue)

/-! ### Counting the issues of criteria -/

/-- Of different things only one can have a property that fixes it. -/
private theorem countP_of_nodup {α : Type} [DecidableEq α] {as : List α} {p : α → Bool} {a : α}
    (hnodup : as.Nodup) (h : ∀ b ∈ as, p b = true → b = a) :
    as.countP p = if a ∈ as ∧ p a = true then 1 else 0 := by
  by_cases hp : p a = true
  · have hcount : as.countP p = as.count a := by
      rw [List.count_eq_countP]
      refine List.countP_congr fun b hb => ?_
      rw [beq_iff_eq]
      exact ⟨h b hb, fun hba => hba ▸ hp⟩
    rw [hcount, hnodup.count]
    simp [hp]
  · rw [List.countP_eq_zero.2 fun b hb hpb => hp (h b hb hpb ▸ hpb)]
    simp [hp]

/-- An option counts what it holds. -/
private theorem count_toList {o : Option RubricIssue} {x : RubricIssue} :
    o.toList.count x = if o = some x then 1 else 0 := by
  cases o with
  | none => rfl
  | some y => simp [List.count_singleton]

namespace Criterion

variable {c : Criterion} {registry : Registry} {rule : Rule}

/-- The issue of some parameters is what the rule says against them. -/
private theorem paramsIssue_eq (hrule : registry.get? c.rule = some rule) (params : Params)
    (language : Option String) :
    c.paramsIssue language (rule.validate params)
      = ((c.objection? registry params).map (.invalidParams c.id language)).toList := by
  unfold objection?
  rw [hrule]
  simp only
  cases rule.validate params with
  | ok u => rfl
  | error e => rfl

/-- The issues of the parameters say of which language they are. -/
private theorem of_mem_paramsIssues (hrule : registry.get? c.rule = some rule) {x : RubricIssue}
    (h : x ∈ c.paramsIssues rule) : ∃ language reason, x = .invalidParams c.id language reason := by
  unfold paramsIssues at h
  simp only [paramsIssue_eq hrule, List.mem_append, List.mem_flatMap, Option.mem_toList,
    Option.map_eq_some_iff] at h
  rcases h with ⟨reason, -, rfl⟩ | ⟨language, -, reason, -, rfl⟩
  · exact ⟨none, reason, rfl⟩
  · exact ⟨some language, reason, rfl⟩

/-- Whether parameters are refused is counted once for a criterion and a language. -/
private theorem count_paramsIssues (hrule : registry.get? c.rule = some rule) (id : String)
    (language : Option String) (reason : String) :
    (c.paramsIssues rule).count (.invalidParams id language reason)
      = if c.isAtFault registry (.invalidParams id language reason) then 1 else 0 := by
  have hissue (o : Option String) (l : Option String) :
      (o.map (RubricIssue.invalidParams c.id l) = some (.invalidParams id language reason)) ↔
        c.id = id ∧ l = language ∧ o = some reason := by
    cases o with
    | none => simp
    | some words => simp
  unfold paramsIssues
  simp only [paramsIssue_eq hrule]
  rw [List.count_append, ← List.filterMap_eq_flatMap_toList, List.count_filterMap, count_toList]
  simp only [hissue]
  cases language with
  | none =>
    -- Only the parameters by default are those of no language.
    have hothers : c.overrides.keys.countP (fun l =>
        (c.objection? registry (c.effectiveParams l)).map (RubricIssue.invalidParams c.id (some l))
          == some (.invalidParams id none reason)) = 0 :=
      List.countP_eq_zero.2 fun l _ => by simp [hissue]
    rw [hothers]
    simp [isAtFault]
  | some language =>
    -- Of the languages with overrides only one is the one in question.
    rw [countP_of_nodup c.overrides.nodup_keys (a := language) fun l _ hl =>
      Option.some.inj ((hissue _ _).1 (beq_iff_eq.1 hl)).2.1]
    simp [isAtFault, hissue, and_left_comm, and_assoc]

/-- A rule that is not known leaves nothing to be said of the parameters. -/
private theorem count_ruleIssues (c : Criterion) (registry : Registry) (x : RubricIssue) :
    (c.ruleIssues registry).count x = match x with
      | .unknownRule .. | .invalidParams .. => if c.isAtFault registry x then 1 else 0
      | _ => 0 := by
  unfold ruleIssues
  cases hrule : registry.get? c.rule with
  | none =>
    have hobjection (params : Params) : c.objection? registry params = none := by
      unfold objection?
      rw [hrule]
    cases x with
    | unknownRule id rule => grind [isAtFault]
    | invalidParams id language reason => cases language <;> simp [isAtFault, hobjection]
    | _ => simp
  | some rule =>
    have hother (h : ∀ language reason, x ≠ .invalidParams c.id language reason) :
        (c.paramsIssues rule).count x = 0 := by
      refine List.count_eq_zero.2 fun hmem => ?_
      obtain ⟨language, reason, hx⟩ := of_mem_paramsIssues hrule hmem
      exact h language reason hx
    cases x with
    | unknownRule id rule' =>
      rw [hother (by simp)]
      grind [isAtFault]
    | invalidParams id language reason => exact count_paramsIssues hrule id language reason
    | _ => exact hother (by simp)

/-- The issues of a criterion are those that it has on its own, and that its id is not new. -/
private theorem count_issues (c : Criterion) (registry : Registry) (earlier : List String)
    (x : RubricIssue) :
    (c.issues registry earlier).count x
      = (if c.isAtFault registry x then 1 else 0)
        + if c.id ∈ earlier ∧ x = .duplicateCriterion c.id then 1 else 0 := by
  unfold issues
  rw [List.count_append, List.count_append, List.count_append, count_ruleIssues]
  simp only [apply_ite (List.count x), List.count_singleton, List.count_nil]
  -- Every check has an issue of its own kind.
  cases x with
  | invalidCriterionId id => grind [isAtFault]
  | duplicateCriterion id => grind [isAtFault]
  | nonPositivePoints id points => grind [isAtFault]
  | _ => simp [isAtFault]

end Criterion

/-- How often an id is reported as not new: for each criterion with that id, unless none has come
before it. -/
def repetitions (earlier : List String) (cs : List Criterion) : RubricIssue → Nat
  | .duplicateCriterion id => cs.countP (·.id = id) - if id ∈ earlier then 0 else 1
  | _ => 0

/-- The first criterion repeats an earlier one or not; the others come after it. -/
private theorem repetitions_cons (earlier : List String) (c : Criterion) (cs : List Criterion)
    (x : RubricIssue) :
    repetitions earlier (c :: cs) x
      = (if c.id ∈ earlier ∧ x = .duplicateCriterion c.id then 1 else 0)
        + repetitions (c.id :: earlier) cs x := by
  cases x with
  | duplicateCriterion id =>
    by_cases hid : c.id = id
    · subst hid
      by_cases hmem : c.id ∈ earlier
      · simp [repetitions, hmem]
        omega
      · simp [repetitions, hmem]
    · have hid' : id ≠ c.id := fun h => hid h.symm
      simp [repetitions, hid, hid']
  | _ => simp [repetitions]

/-- The issues of some criteria: those of each on its own, and what is said of repeated ids. -/
private theorem count_criteriaIssues (registry : Registry) (earlier : List String)
    (cs : List Criterion) (x : RubricIssue) :
    (criteriaIssues registry earlier cs).count x
      = cs.countP (·.isAtFault registry x) + repetitions earlier cs x := by
  induction cs generalizing earlier with
  | nil => cases x <;> simp [criteriaIssues, repetitions]
  | cons c cs ih =>
    rw [criteriaIssues, List.count_append, Criterion.count_issues, ih, List.countP_cons,
      repetitions_cons]
    omega

/-! ### Counting the issues of a rubric -/

namespace Rubric

variable {r : Rubric}

/-- A dimension is found by its key and by no other name. -/
private theorem ofKey?_eq_some_iff {name : String} {d : Dimension} :
    Dimension.ofKey? name = some d ↔ name = d.key := by
  constructor
  · intro h
    have := List.find?_some h
    exact (beq_iff_eq.1 this).symm
  · rintro rfl
    cases d <;> rfl

/-- At most one thing is said of a weight declared. -/
private theorem weightIssues_eq_toList (r : Rubric) (name : String) (declared : Float) :
    r.weightIssues name declared = (r.weightIssues name declared).head?.toList := by
  unfold weightIssues
  cases Dimension.ofKey? name with
  | none => rfl
  | some d => by_cases h : Points.same declared (r.weight d) = true <;> simp [h]

/-- The name of a weight declared is none of a dimension, or the weight is not the sum of the
dimension's points. -/
private theorem head?_weightIssues {name : String} {declared : Float} {x : RubricIssue} :
    (r.weightIssues name declared).head? = some x ↔
      (Dimension.ofKey? name = none ∧ .unknownDimension name = x) ∨
      ∃ d, name = d.key ∧ Points.same declared (r.weight d) = false ∧
        .weightMismatch d declared (r.weight d) = x := by
  simp only [← ofKey?_eq_some_iff]
  unfold weightIssues
  cases hd : Dimension.ofKey? name with
  | none => simp
  | some d => by_cases h : Points.same declared (r.weight d) = true <;> simp [h]

/-- Of the weights declared, each has a name of its own. -/
private theorem count_weightIssues (r : Rubric) (registry : Registry) (x : RubricIssue) :
    (r.declaredWeights.entries.flatMap fun (name, declared) => r.weightIssues name declared).count x
      = match x with
        | .unknownDimension .. | .weightMismatch .. => r.faults registry x
        | _ => 0 := by
  have hlist : (r.declaredWeights.entries.flatMap fun (name, declared) =>
      r.weightIssues name declared)
      = r.declaredWeights.entries.filterMap fun e => (r.weightIssues e.1 e.2).head? := by
    rw [List.filterMap_eq_flatMap_toList]
    exact List.flatMap_congr fun e _ => r.weightIssues_eq_toList e.1 e.2
  rw [hlist, List.count_filterMap]
  cases x with
  | unknownDimension name =>
    -- The name alone decides.
    have hkeys : r.declaredWeights.entries.countP (fun e =>
        (r.weightIssues e.1 e.2).head? == some (.unknownDimension name))
        = r.declaredWeights.keys.countP fun name' =>
          decide (name' = name ∧ Dimension.ofKey? name' = none) := by
      rw [Table.keys, List.countP_map]
      refine List.countP_congr fun e _ => ?_
      rw [beq_iff_eq, head?_weightIssues, Function.comp_apply, decide_eq_true_iff]
      constructor
      · rintro (⟨hnone, hx⟩ | ⟨d, -, -, hx⟩)
        · cases hx
          exact ⟨rfl, hnone⟩
        · cases hx
      · rintro ⟨rfl, hnone⟩
        exact .inl ⟨hnone, rfl⟩
    rw [hkeys, countP_of_nodup r.declaredWeights.nodup_keys (a := name) fun name' _ h =>
      (of_decide_eq_true h).1]
    simp [faults]
  | weightMismatch d declared derived =>
    have hentries : r.declaredWeights.entries.Nodup := r.declaredWeights.nodup_keys.of_map
    have hissue (e : String × Float) :
        (r.weightIssues e.1 e.2).head? = some (.weightMismatch d declared derived) ↔
          e = (d.key, declared) ∧ derived = r.weight d ∧ Points.same declared derived = false := by
      rw [head?_weightIssues, Prod.ext_iff]
      constructor
      · rintro (⟨-, hx⟩ | ⟨d, hname, hsame, hx⟩)
        · cases hx
        · cases hx
          exact ⟨⟨hname, rfl⟩, rfl, hsame⟩
      · rintro ⟨⟨hname, rfl⟩, rfl, hsame⟩
        exact .inr ⟨d, hname, hsame, rfl⟩
    rw [countP_of_nodup hentries (a := (d.key, declared)) fun e _ he =>
      ((hissue e).1 (beq_iff_eq.1 he)).1]
    simp only [beq_iff_eq, hissue (d.key, declared), Table.mem_entries_iff, true_and, faults]
  | _ =>
    refine List.countP_eq_zero.2 fun e _ he => ?_
    rcases head?_weightIssues.1 (beq_iff_eq.1 he) with ⟨-, hx⟩ | ⟨d, -, -, hx⟩ <;> cases hx

/-- The total is looked at only where there are criteria. -/
private theorem count_totalIssues (r : Rubric) (registry : Registry) (x : RubricIssue) :
    r.totalIssues.count x = match x with
      | .totalMismatch .. => r.faults registry x
      | _ => 0 := by
  unfold totalIssues
  rw [apply_ite (List.count x), List.count_nil, List.count_singleton]
  cases x with
  | totalMismatch expected actual =>
    simp only [faults]
    grind
  | _ => simp

/-- An override is reported as often as it is left over. -/
private theorem count_danglingIssues (r : Rubric) (registry : Registry) (x : RubricIssue) :
    (r.danglingOverrides.map fun (language, id) =>
      RubricIssue.overrideForUnknownCriterion language id).count x = match x with
        | .overrideForUnknownCriterion .. => r.faults registry x
        | _ => 0 := by
  have hinjective : Function.Injective fun e : String × String =>
      RubricIssue.overrideForUnknownCriterion e.1 e.2 := by
    intro e e' h
    injection h with hlanguage hid
    exact Prod.ext hlanguage hid
  cases x with
  | overrideForUnknownCriterion language id =>
    exact List.count_map_of_injective _ _ hinjective (language, id)
  | _ => exact List.count_eq_zero.2 (by simp)

/-- Each issue is listed as often as the rubric has it. -/
private theorem count_issues (r : Rubric) (registry : Registry) (x : RubricIssue) :
    (r.issues registry).count x = r.faults registry x := by
  unfold issues
  rw [List.count_append, List.count_append, List.count_append, List.count_append,
    count_criteriaIssues, count_weightIssues r registry, count_totalIssues r registry,
    count_danglingIssues r registry, apply_ite (List.count x), List.count_nil,
    List.count_singleton]
  -- The parts of the list have kinds of issues of their own.
  cases x
  all_goals simp [faults, repetitions, Criterion.isAtFault]

/-- A rubric has no issues if and only if it is valid, each issue is listed as often as the rubric
has it, and the form of an id is that of the pattern. -/
theorem issues_account (r : Rubric) (registry : Registry) :
    (r.issues registry = [] ↔ r.Valid registry) ∧
      (∀ issue, (r.issues registry).count issue = r.faults registry issue) ∧
      ∀ id, isCriterionId id = true ↔ id.toList ∈ idPattern.matches' :=
  ⟨issues_eq_nil_iff, r.count_issues registry, fun _ => mem_matches'_idPattern.symm⟩

end Rubric

end Scorecard
