import Scorecard.Proofs.Overrides

/-!
# Overrides moved to the table

Overrides may stand beside their criterion or in the document's own table, and a document says the
same in both forms as long as it spells no language in two ways beside a criterion. The table merges
several spellings of one language parameter by parameter. Beside a criterion the greatest spelling
takes the place of the others, and what they alone have is lost; nothing else is.

* `RubricDocument.moved`: all overrides in the table.
* `Criterion.Lost`: what is written beside a criterion and does not count.
* `Rubric.interchangeable_moved`: both forms compared.
* `Rubric.inline_spelling_lost`: a parameter that counts in one form only.
-/

namespace Scorecard

variable {language name : String} {v : Json}

/-! ### The table that holds all overrides -/

namespace RubricDocument

variable {doc : RubricDocument} {c : Criterion}

/-- The tags that stand beside some criterion. -/
def inlineTags (doc : RubricDocument) : List String := doc.criteria.flatMap (·.overrides.keys)

/-- What stands under a tag beside the criteria, by their ids. -/
def inlineUnder (doc : RubricDocument) (tag : String) : Table String Params :=
  .ofList (doc.criteria.filterMap fun c => (c.overrides.get? tag).map (c.id, ·))

/-- The document with all that stands beside a criterion in the table of overrides instead. -/
def moved (doc : RubricDocument) : RubricDocument :=
  { doc with
    criteria := doc.criteria.map Criterion.plain
    overrides := .ofList (doc.inlineTags.map fun tag => (tag, doc.inlineUnder tag)) }

theorem get?_inlineUnder (hids : (doc.criteria.map (·.id)).Nodup) (hc : c ∈ doc.criteria)
    (tag : String) : (doc.inlineUnder tag).get? c.id = c.overrides.get? tag := by
  -- As the ids are distinct, what is found under an id comes from its own criterion.
  have hown {special : Params} (h : (doc.inlineUnder tag).get? c.id = some special) :
      c.overrides.get? tag = some special := by
    obtain ⟨c', hc', hmap⟩ := List.mem_filterMap.1 (Table.mem_of_get?_ofList h)
    obtain ⟨special', hspecial', heq⟩ := Option.map_eq_some_iff.1 hmap
    obtain ⟨hid, rfl⟩ := Prod.mk.inj heq
    rwa [← List.inj_on_of_nodup_map hids hc' hc hid]
  refine Option.ext fun special => ⟨hown, fun h => ?_⟩
  have hmem : (c.id, special) ∈
      doc.criteria.filterMap fun c => (c.overrides.get? tag).map (c.id, ·) :=
    List.mem_filterMap.2 ⟨c, hc, by rw [h, Option.map_some]⟩
  -- Something is looked up, and it is what the criterion has.
  obtain ⟨special', h'⟩ := Table.exists_get?_ofList_iff.2 (List.mem_map_of_mem (f := (·.1)) hmem)
  rw [hown h', Option.some_inj] at h
  rw [← h]
  exact h'

/-- The table has what stood beside the criteria. -/
theorem given?_moved (hids : (doc.criteria.map (·.id)).Nodup) (hc : c ∈ doc.criteria)
    (tag name : String) :
    doc.moved.given? tag c.id name = (c.overrides.get? tag).bind (·.get? name) := by
  have hunder {byCriterion : Table String Params}
      (h : doc.moved.overrides.get? tag = some byCriterion) :
      byCriterion = doc.inlineUnder tag := by
    obtain ⟨tag', -, heq⟩ := List.mem_map.1 (Table.mem_of_get?_ofList h)
    obtain ⟨rfl, rfl⟩ := Prod.mk.inj heq
    rfl
  unfold given?
  cases htag : doc.moved.overrides.get? tag with
  | some byCriterion =>
    rw [Option.bind_some, hunder htag, get?_inlineUnder hids hc]
  | none =>
    rw [Option.bind_none]
    -- A tag that stands beside the criterion would be in the table.
    cases hget : c.overrides.get? tag with
    | none => rfl
    | some special =>
      have hmem : tag ∈ (doc.inlineTags.map fun tag => (tag, doc.inlineUnder tag)).map (·.1) := by
        rw [List.map_map]
        refine List.mem_map.2 ⟨tag, List.mem_flatMap.2 ⟨c, hc, ?_⟩, rfl⟩
        exact Table.mem_keys_iff.2 ⟨special, hget⟩
      obtain ⟨byCriterion, hsome⟩ := Table.exists_get?_ofList_iff.2 hmem
      rw [moved] at htag
      cases htag.symm.trans hsome

/-- The table has nothing else. -/
theorem mem_ids_of_mem_overridePairs_moved {p : String × String}
    (h : p ∈ doc.moved.overridePairs) : p.2 ∈ doc.criteria.map (·.id) := by
  obtain ⟨⟨tag, byCriterion⟩, hentry, hp⟩ := List.mem_flatMap.1 h
  obtain ⟨id, hid, rfl⟩ := List.mem_map.1 hp
  have hget := (Table.mem_entries_iff _ _ _).1 hentry
  obtain ⟨tag', -, heq⟩ := List.mem_map.1 (Table.mem_of_get?_ofList hget)
  obtain ⟨rfl, rfl⟩ := Prod.mk.inj heq
  obtain ⟨special, hspecial⟩ := Table.mem_keys_iff.1 hid
  obtain ⟨c, hc, hmap⟩ := List.mem_filterMap.1 (Table.mem_of_get?_ofList hspecial)
  obtain ⟨special', -, heq'⟩ := Option.map_eq_some_iff.1 hmap
  rw [← (Prod.mk.inj heq').1]
  exact List.mem_map_of_mem hc

end RubricDocument

/-! ### What is lost -/

namespace Criterion

variable {c : Criterion}

/-- The value stands under the greatest spelling of the language that has the parameter, and there
is a greater spelling, which does not have it. -/
def Lost (c : Criterion) (language name : String) (v : Json) : Prop :=
  LastSpelled language (fun tag => (c.overrides.get? tag).bind (·.get? name)) v ∧
    ∃ special, LastSpelled language c.overrides.get? special ∧ special.get? name = none

/-- What stands under the greatest spelling of all is what the greatest spelling that has the
parameter gives it. -/
theorem spelled?_of_bind_spelled?
    (h : (c.overrides.spelled? language some).bind (·.get? name) = some v) :
    c.overrides.spelled? language (·.get? name) = some v := by
  obtain ⟨special, hspecial, hv⟩ := Option.bind_eq_some_iff.1 h
  obtain ⟨tag, htag, hget, hgreatest⟩ := Table.spelled?_some_iff.1 hspecial
  refine Table.spelled?_eq_some_iff.2 ⟨tag, htag, by simp only [hget, Option.bind_some, hv], ?_⟩
  -- No spelling with the parameter is greater than the greatest of all.
  intro tag' htag' hsome
  exact hgreatest tag' htag' (Option.isSome_of_isSome_bind hsome)

/-- A value is lost if and only if it is found parameter by parameter and not otherwise. -/
theorem lost_iff :
    c.Lost language name v ↔ c.overrides.spelled? language (·.get? name) = some v ∧
      (c.overrides.spelled? language some).bind (·.get? name) = none := by
  unfold Lost
  rw [Table.spelled?_eq_some_iff]
  refine and_congr_right fun hlast => ?_
  constructor
  · rintro ⟨special, hspecial, hnone⟩
    rw [Table.spelled?_some_iff.2 hspecial, Option.bind_some, hnone]
  · intro hnone
    cases hspecial : c.overrides.spelled? language some with
    | some special =>
      rw [hspecial, Option.bind_some] at hnone
      exact ⟨special, Table.spelled?_some_iff.1 hspecial, hnone⟩
    | none =>
      obtain ⟨tag, htag, hv, -⟩ := hlast
      have hget := Table.spelled?_eq_none_iff.1 hspecial tag htag
      rw [Option.bind_fun_some] at hget
      simp only [hget, Option.bind_none] at hv
      cases hv

/-- Where the language is spelled in one way only, nothing is lost. -/
theorem not_lost (h : ∀ tag ∈ c.overrides.keys, ∀ tag' ∈ c.overrides.keys,
      Text.normal tag = Text.normal language → Text.normal tag' = Text.normal language →
        tag = tag') : ¬ c.Lost language name v := by
  rintro ⟨⟨tag, htag, hv, -⟩, special', ⟨tag', htag', hspecial', -⟩, hnone⟩
  obtain ⟨special, hspecial, hv⟩ := Option.bind_eq_some_iff.1 hv
  have hsame := h tag (Table.mem_keys_iff.2 ⟨_, hspecial⟩) tag'
    (Table.mem_keys_iff.2 ⟨_, hspecial'⟩) htag htag'
  rw [hsame, hspecial', Option.some_inj] at hspecial
  rw [hspecial, hv] at hnone
  cases hnone

/-- A criterion as it comes from the two forms: `a` with its overrides beside it, `b` with those
moved to the table. -/
structure Interchanged (c a b : Criterion) : Prop where
  /-- The forms agree on the languages that are spelled in one way only. -/
  same : ∀ language, (∀ tag ∈ c.overrides.keys, ∀ tag' ∈ c.overrides.keys,
      Text.normal tag = Text.normal language → Text.normal tag' = Text.normal language →
        tag = tag') → a.effectiveParams language = b.effectiveParams language
  /-- In the table every spelling counts with all that it has. -/
  complete : ∀ tag special, c.overrides.get? tag = some special → ∀ language,
    Text.normal tag = Text.normal language →
      ∀ name ∈ special.keys, name ∈ (b.effectiveParams language).keys
  /-- What is lost beside the criterion leaves the parameter as it is without overrides. -/
  lost : ∀ language name v, c.Lost language name v →
    (a.effectiveParams language).get? name = c.params.get? name ∧
      (b.effectiveParams language).get? name = some v
  /-- Nothing else is different. -/
  kept : ∀ language name, (∀ v, ¬ c.Lost language name v) →
    (a.effectiveParams language).get? name = (b.effectiveParams language).get? name

/-- The two forms, by what either one finds. -/
theorem interchanged_of_eq {a b : Criterion}
    (ha : ∀ language name, (a.effectiveParams language).get? name
      = ((c.overrides.spelled? language some).bind (·.get? name)).or (c.params.get? name))
    (hb : ∀ language name, (b.effectiveParams language).get? name
      = (c.overrides.spelled? language (·.get? name)).or (c.params.get? name)) :
    c.Interchanged a b := by
  have hkept (language name : String) (h : ∀ v, ¬ c.Lost language name v) :
      (a.effectiveParams language).get? name = (b.effectiveParams language).get? name := by
    rw [ha, hb]
    cases hwhole : (c.overrides.spelled? language some).bind (·.get? name) with
    | some v => rw [spelled?_of_bind_spelled? hwhole]
    | none =>
      have hnone : c.overrides.spelled? language (·.get? name) = none :=
        Option.eq_none_iff_forall_ne_some.2 fun v hv => h v (lost_iff.2 ⟨hv, hwhole⟩)
      rw [hnone]
  refine ⟨fun language h => ?_, fun tag special hget language htag name hname => ?_,
    fun language name v h => ?_, hkept⟩
  · exact Table.ext_get? fun name => hkept language name fun v => not_lost h
  · obtain ⟨v, hv⟩ := Table.mem_keys_iff.1 hname
    rw [Table.mem_keys_iff, ← Option.isSome_iff_exists, hb, Option.isSome_or,
      Bool.or_eq_true]
    refine .inl (Option.isSome_iff_ne_none.2 fun hnone => ?_)
    have hnone := Table.spelled?_eq_none_iff.1 hnone tag htag
    rw [hget, Option.bind_some, hv] at hnone
    cases hnone
  · obtain ⟨hv, hnone⟩ := lost_iff.1 h
    rw [ha, hb, hv, hnone]
    exact ⟨rfl, rfl⟩

end Criterion

/-! ### Both forms -/

namespace Rubric

variable {doc : RubricDocument}

/-- The rubrics `r` and `r'` of a document in the two forms differ at most in what is lost. -/
structure Interchangeable (doc : RubricDocument) (r r' : Rubric) : Prop where
  /-- In both rubrics the criteria are those of the document, but for their overrides. -/
  plain : r.criteria.map Criterion.plain = doc.criteria.map Criterion.plain ∧
    r'.criteria.map Criterion.plain = doc.criteria.map Criterion.plain
  attached : r.danglingOverrides = [] ∧ r'.danglingOverrides = []
  criteria : ∀ (i : Nat) (c : Criterion), doc.criteria[i]? = some c →
    ∃ a b, r.criteria[i]? = some a ∧ r'.criteria[i]? = some b ∧ c.Interchanged a b

/-- Where no id stands twice, every criterion is the first with its id. -/
private theorem firstAt_of_nodup {i : Nat} {c : Criterion} (hids : (doc.criteria.map (·.id)).Nodup)
    (hget : doc.criteria[i]? = some c) : doc.FirstAt i c := by
  have hid : (doc.criteria.map (·.id))[i]? = some c.id := by rw [List.getElem?_map, hget]; rfl
  refine ⟨hget, fun hmem => ?_⟩
  obtain ⟨j, hj⟩ := List.getElem?_of_mem hmem
  rw [List.getElem?_take, Option.ite_none_right_eq_some] at hj
  obtain ⟨hlt, hj⟩ := hj
  have hj' := (List.getElem?_eq_some_iff.1 hj).1
  have heq : j = i := (List.getElem?_inj hj' hids).1 (hj.trans hid.symm)
  omega

/-- Parameter by parameter, the table has what the criterion had beside it. -/
private theorem spelled?_moved {c : Criterion} (hids : (doc.criteria.map (·.id)).Nodup)
    (hc : c ∈ doc.criteria) (language name : String) :
    (doc.moved.overrides.spelled? language fun byCriterion =>
        (byCriterion.get? c.id).bind (·.get? name))
      = c.overrides.spelled? language (·.get? name) := by
  have hgiven : (fun tag => doc.moved.given? tag c.id name)
      = fun tag => (c.overrides.get? tag).bind (·.get? name) :=
    funext fun tag => doc.given?_moved hids hc tag name
  refine Option.ext fun v => ?_
  rw [Table.spelled?_eq_some_iff, Table.spelled?_eq_some_iff, ← hgiven]
  rfl

/-- In a document without a table of overrides, what stands beside the criteria may be moved to the
table. The parameters stay the same for every language that is spelled in one way only, and for
others no parameter is left out any more. -/
theorem interchangeable_moved (hids : (doc.criteria.map (·.id)).Nodup)
    (hempty : doc.overrides = .empty) :
    Interchangeable doc (ofDocument doc) (ofDocument doc.moved) := by
  have hsame : doc.moved.criteria.map (·.id) = doc.criteria.map (·.id) := by
    rw [RubricDocument.moved, List.map_map]
    rfl
  refine ⟨⟨plain_ofDocument doc, ?_⟩, ⟨?_, ?_⟩, fun i c hget => ?_⟩
  · rw [plain_ofDocument, RubricDocument.moved, List.map_map]
    rfl
  · rw [dangling_ofDocument, RubricDocument.overridePairs, hempty]
    rfl
  · rw [dangling_ofDocument, hsame, List.map_eq_nil_iff, List.filter_eq_nil_iff]
    intro p hp
    simpa using RubricDocument.mem_ids_of_mem_overridePairs_moved hp
  · have hc : c ∈ doc.criteria := List.mem_of_getElem? hget
    have hfirst : doc.FirstAt i c := firstAt_of_nodup hids hget
    have hfirst' : doc.moved.FirstAt i c.plain := by
      refine firstAt_of_nodup (by rwa [hsame]) ?_
      rw [RubricDocument.moved, List.getElem?_map, hget, Option.map_some]
    obtain ⟨a, ha, hparams⟩ := exists_merged hfirst
    obtain ⟨b, hb, hparams'⟩ := exists_merged hfirst'
    refine ⟨a, b, ha, hb, Criterion.interchanged_of_eq (fun language name => ?_)
      fun language name => ?_⟩
    · -- There is nothing in the table.
      have hnone : (doc.overrides.spelled? language fun byCriterion =>
          (byCriterion.get? c.id).bind (·.get? name)) = none := by
        rw [hempty]
        rfl
      rw [hparams, hnone, Option.none_or]
    · -- There is nothing beside the criterion.
      have hnone : c.plain.overrides.spelled? language some = none := rfl
      have htable := spelled?_moved hids hc language name
      rw [hparams', hnone, Option.bind_none, Option.or_none]
      change (doc.moved.overrides.spelled? language fun byCriterion =>
        (byCriterion.get? c.id).bind (·.get? name)).or (c.params.get? name) = _
      rw [htable]

end Rubric

/-! ### Two spellings -/

/-- A document that spells one language in two ways beside its only criterion. -/
private def RubricDocument.spelledTwice : RubricDocument where
  version := "1"
  dimensions := .empty
  criteria := [
    ⟨"lint", .codeQuality, 100, "lint_issues", none, .empty,
      .ofList [
        ("Python", .ofList [("max_issues", .ofNat 1)]),
        ("python", .ofList [("partial_max_issues", .ofNat 2)])]⟩]
  overrides := .empty

theorem Rubric.interchangeable_moved_spelledTwice :
    let doc := RubricDocument.spelledTwice
    ((doc.criteria.map (·.id)).Nodup ∧ doc.overrides = .empty) ∧
      Interchangeable doc (ofDocument doc) (ofDocument doc.moved) := by
  intro doc
  have hids : (doc.criteria.map (·.id)).Nodup := by decide +kernel
  exact ⟨⟨hids, rfl⟩, interchangeable_moved hids rfl⟩

/-- The parameter under the lesser spelling counts in the table, and beside the criterion it does
not, although no id stands twice and there are no other overrides. -/
theorem Rubric.inline_spelling_lost :
    let doc := RubricDocument.spelledTwice
    let found (r : Rubric) := (r.criterion? "lint").map fun c => (c.effectiveParams "PYTHON").keys
    ((doc.criteria.map (·.id)).Nodup ∧ doc.overrides = .empty) ∧
      (Text.normal "Python" = Text.normal "PYTHON" ∧
        ∀ c ∈ doc.criteria, (c.overrides.get? "Python").map (·.keys) = some ["max_issues"]) ∧
      found (ofDocument doc) = some ["partial_max_issues"] ∧
      found (ofDocument doc.moved) = some ["max_issues", "partial_max_issues"] := by
  intro doc found
  refine ⟨⟨?_, rfl⟩, ⟨?_, ?_⟩, ?_, ?_⟩
  all_goals decide +kernel

end Scorecard
