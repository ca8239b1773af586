import Scorecard.Proofs.Lists
import Scorecard.Proofs.Parameters
import Scorecard.Rubric.Document

/-!
# Overrides of rubric documents

The overrides of a document's own table are merged into its criteria one after another, in ascending
order of the tags as they are written, each into the first criterion with its id. So a parameter of
such a criterion has, for a language, the value under the greatest spelling of the language in the
table that gives it one; without any, the value beside the criterion; and without that, the
criterion's own value. What the table says of an id that no criterion has is listed, in the order of
the table, and makes no difference to the criteria.

* `LastSpelled`: what stands under the greatest spelling of a language.
* `Override.getElem?_merge`, `Override.dangling_merge`: what merging one override does.
* `Override.merged_foldl`: what merging all of them does.
* `RubricDocument.Prescribes`: the parameters that a document asks for.
* `Rubric.merges_ofDocument`: the rubric of a document has them, and lists what is left over.
-/

namespace Scorecard

variable {α β : Type}

/-! ### Spellings -/

/-- The value is the one that stands under the greatest spelling of the language under which one
stands. -/
def LastSpelled (language : String) (value? : String → Option α) (v : α) : Prop :=
  ∃ tag, Text.normal tag = Text.normal language ∧ value? tag = some v ∧
    ∀ tag', Text.normal tag' = Text.normal language → (value? tag').isSome → tag' ≤ tag

namespace Table

variable {t : Table String α} {g : α → Option β} {language : String}

/-- What the function gives for the greatest spelling of a language for which it gives something. -/
def spelled? (t : Table String α) (language : String) (g : α → Option β) : Option β :=
  t.last? fun tag a => if Text.normal tag = Text.normal language then g a else none

theorem spelled?_eq_none_iff :
    t.spelled? language g = none ↔
      ∀ tag, Text.normal tag = Text.normal language → (t.get? tag).bind g = none := by
  unfold spelled?
  rw [last?_eq_none_iff]
  constructor
  · intro h tag htag
    refine Option.bind_eq_none_iff.2 fun a ha => ?_
    have hnone := h tag a ha
    rwa [if_pos htag] at hnone
  · intro h tag a ha
    -- Other languages have nothing to give in any case.
    by_cases htag : Text.normal tag = Text.normal language
    · rw [if_pos htag]
      exact Option.bind_eq_none_iff.1 (h tag htag) a ha
    · rw [if_neg htag]

theorem spelled?_eq_some_iff {b : β} :
    t.spelled? language g = some b ↔ LastSpelled language (fun tag => (t.get? tag).bind g) b := by
  unfold spelled?
  rw [last?_eq_some_iff]
  constructor
  · rintro ⟨tag, a, ha, hb, hgreatest⟩
    obtain ⟨htag, hb⟩ := Option.ite_none_right_eq_some.1 hb
    refine ⟨tag, htag, Option.bind_eq_some_iff.2 ⟨a, ha, hb⟩, fun tag' htag' hsome => ?_⟩
    obtain ⟨b', hb'⟩ := Option.isSome_iff_exists.1 hsome
    obtain ⟨a', ha', hga'⟩ := Option.bind_eq_some_iff.1 hb'
    -- A greater spelling with a value would have been found instead.
    refine String.not_lt.1 (hgreatest tag' a' ha' ?_)
    rw [if_pos htag', hga']
    rfl
  · rintro ⟨tag, htag, hb, hgreatest⟩
    obtain ⟨a, ha, hb⟩ := Option.bind_eq_some_iff.1 hb
    refine ⟨tag, a, ha, by rw [if_pos htag, hb], fun tag' a' ha' hsome => ?_⟩
    obtain ⟨b', hb'⟩ := Option.isSome_iff_exists.1 hsome
    obtain ⟨htag', hga'⟩ := Option.ite_none_right_eq_some.1 hb'
    refine String.not_lt.2 (hgreatest tag' htag' ?_)
    simp only [ha', Option.bind_some, hga', Option.isSome_some]

/-- The entry under the greatest spelling of a language. -/
theorem spelled?_some_iff {a : α} :
    t.spelled? language some = some a ↔ LastSpelled language t.get? a := by
  rw [spelled?_eq_some_iff]
  simp only [Option.bind_fun_some]

end Table

/-! ### One override -/

namespace Criterion

/-- The criterion without its overrides. -/
def plain (c : Criterion) : Criterion := { c with overrides := .empty }

/-- What an override does to the first criterion with an id. -/
def receive (c : Criterion) (o : Override) : Criterion :=
  if c.id = o.criterionId then c.addOverride o.language o.params else c

/-- What overrides do to a criterion that follows some others with the ids `earlier`. -/
def merged (earlier : List String) (os : List Override) (c : Criterion) : Criterion :=
  if c.id ∈ earlier then c else os.foldl receive c

theorem receive_of_ne {c : Criterion} {o : Override} (h : c.id ≠ o.criterionId) :
    c.receive o = c :=
  if_neg h

@[simp] theorem plain_receive (c : Criterion) (o : Override) : (c.receive o).plain = c.plain := by
  unfold receive
  split <;> rfl

theorem plain_foldl_receive (os : List Override) (c : Criterion) :
    (os.foldl receive c).plain = c.plain := by
  induction os generalizing c with
  | nil => rfl
  | cons o os ih => rw [List.foldl_cons, ih, plain_receive]

@[simp] theorem plain_merged (earlier : List String) (os : List Override) (c : Criterion) :
    (c.merged earlier os).plain = c.plain := by
  unfold merged
  split
  · rfl
  · exact plain_foldl_receive os c

@[simp] theorem id_merged (earlier : List String) (os : List Override) (c : Criterion) :
    (c.merged earlier os).id = c.id :=
  (Criterion.mk.inj (c.plain_merged earlier os)).1

/-- Overrides for other criteria need not be looked at. -/
theorem foldl_receive_filter {p : Override → Bool} {c : Criterion}
    (hp : ∀ o : Override, o.criterionId = c.id → p o = true) (os : List Override) :
    (os.filter p).foldl receive c = os.foldl receive c := by
  induction os generalizing c with
  | nil => rfl
  | cons o os ih =>
    -- Receiving an override does not change the id, so that the same overrides stay of interest.
    have hid : (c.receive o).id = c.id := c.id_merged [] [o]
    rw [List.foldl_cons, List.filter_cons]
    split
    · exact ih fun o' h => hp o' (h.trans hid)
    · next hother =>
      have hne : c.id ≠ o.criterionId := fun heq => hother (hp o heq.symm)
      rw [receive_of_ne hne]
      exact ih hp

/-- An override for another criterion changes nothing. -/
theorem merged_of_ne {earlier : List String} {o : Override} {c : Criterion}
    (h : c.id ≠ o.criterionId) : c.merged earlier [o] = c := by
  unfold merged
  rw [List.foldl_cons, List.foldl_nil, receive_of_ne h, ite_self]

/-- A criterion in front that the override is not for makes no difference. -/
theorem merged_cons_of_ne {id : String} {earlier : List String} {o : Override} (c : Criterion)
    (h : id ≠ o.criterionId) : c.merged (id :: earlier) [o] = c.merged earlier [o] := by
  by_cases hid : c.id = id
  · rw [merged_of_ne (hid ▸ h), merged_of_ne (hid ▸ h)]
  · unfold merged
    simp only [List.mem_cons, hid, false_or]

theorem merged_append (earlier : List String) (os : List Override) (o : Override)
    (c : Criterion) :
    c.merged earlier (os ++ [o]) = (c.merged earlier os).merged earlier [o] := by
  rw [merged.eq_def earlier [o], id_merged]
  -- A criterion whose id has been seen before receives neither the first ones nor the last.
  by_cases h : c.id ∈ earlier
  · rw [merged, merged, if_pos h, if_pos h, if_pos h]
  · rw [merged, merged, if_neg h, if_neg h, if_neg h, List.foldl_append]

/-- The parameters of an override come in front of those that there are for its language. -/
theorem special?_receive (c : Criterion) (o : Override) (language name : String) :
    (c.receive o).special? language name
      = (if o.criterionId = c.id ∧ o.language = language then o.params.get? name else none).or
        (c.special? language name) := by
  by_cases hid : c.id = o.criterionId
  · rw [receive, if_pos hid]
    unfold addOverride special?
    simp only
    rw [Table.get?_insert]
    -- Where there are parameters for the language, those of the override are put over them.
    by_cases hlanguage : language = o.language
    · rw [if_pos hlanguage, if_pos ⟨hid.symm, hlanguage.symm⟩, Option.bind_some,
        Table.get?_override, hlanguage]
      cases c.overrides.get? o.language <;> rfl
    · rw [if_neg hlanguage, if_neg fun h => hlanguage h.2.symm, Option.none_or]
  · rw [receive_of_ne hid, if_neg fun h => hid h.1.symm, Option.none_or]

/-- Of the overrides that a criterion has received, the last one that has a parameter gives it its
value. -/
theorem special?_foldl_receive (os : List Override) (c : Criterion) (language name : String) :
    (os.foldl receive c).special? language name
      = (os.reverse.findSome? fun o =>
          if o.criterionId = c.id ∧ o.language = language then o.params.get? name else none).or
        (c.special? language name) := by
  -- The last override counts first, so that the list is gone through from its end.
  induction os generalizing c with
  | nil => rfl
  | cons o os ih =>
    have hid : (c.receive o).id = c.id := c.id_merged [] [o]
    rw [List.foldl_cons, ih, hid, special?_receive, List.reverse_cons, List.findSome?_append,
      List.findSome?_singleton, Option.or_assoc]

end Criterion

namespace Override

variable {cs cs' : List Criterion} {o : Override}

/-- An override is merged if and only if there is a criterion with its id. -/
private theorem applyTo_eq_none_iff : o.applyTo cs = none ↔ o.criterionId ∉ cs.map (·.id) := by
  -- The induction follows the search for the first criterion with the id.
  induction cs with
  | nil => simp [applyTo]
  | cons b rest ih =>
    rw [applyTo]
    by_cases hid : b.id = o.criterionId
    · simp [hid]
    · simp [hid, ih, Ne.symm hid]

/-- The first criterion with the override's id receives it, and no other one. -/
private theorem getElem?_applyTo (h : o.applyTo cs = some cs') (i : Nat) :
    cs'[i]? = cs[i]?.map (Criterion.merged ((cs.map (·.id)).take i) [o]) := by
  induction cs generalizing cs' i with
  | nil => cases h
  | cons b rest ih =>
    rw [applyTo] at h
    by_cases hid : b.id = o.criterionId
    · rw [if_pos hid] at h
      cases h
      cases i with
      | zero =>
        change some (b.addOverride o.language o.params) = some (b.receive o)
        rw [Criterion.receive, if_pos hid]
      | succ j =>
        -- The override's id has been seen, so that it concerns none of those that follow.
        change rest[j]? = rest[j]?.map _
        cases rest[j]? with
        | none => rfl
        | some c =>
          rw [Option.map_some, Option.some_inj]
          by_cases hc : c.id = b.id
          · exact (if_pos (List.mem_cons.2 (.inl hc))).symm
          · exact (Criterion.merged_of_ne (hid ▸ hc)).symm
    · rw [if_neg hid] at h
      obtain ⟨rest', hrest, rfl⟩ := Option.map_eq_some_iff.1 h
      cases i with
      | zero =>
        change some b = some (b.receive o)
        rw [Criterion.receive_of_ne hid]
      | succ j =>
        change rest'[j]? = rest[j]?.map _
        rw [ih hrest j]
        exact congrArg (Option.map · _) (funext fun c => (c.merged_cons_of_ne hid).symm)

/-- An override is received by the first criterion with its id, if there is one. -/
theorem getElem?_merge (state : List Criterion × List (String × String)) (o : Override) (i : Nat) :
    (Override.merge state o).1[i]?
      = state.1[i]?.map (Criterion.merged ((state.1.map (·.id)).take i) [o]) := by
  unfold merge
  cases happly : o.applyTo state.1 with
  | some cs' => exact getElem?_applyTo happly i
  | none =>
    -- No criterion has the id, so that none receives anything.
    have hnew := applyTo_eq_none_iff.1 happly
    simp only
    cases hget : state.1[i]? with
    | none => rfl
    | some c =>
      have hne : c.id ≠ o.criterionId := fun heq =>
        hnew (heq ▸ List.mem_map_of_mem (List.mem_of_getElem? hget))
      rw [Option.map_some, Criterion.merged_of_ne hne]

/-- An override is listed if there is no criterion with its id. -/
theorem dangling_merge (state : List Criterion × List (String × String)) (o : Override) :
    (Override.merge state o).2 = state.2 ++
      if o.criterionId ∈ state.1.map (·.id) then [] else [(o.language, o.criterionId)] := by
  unfold merge
  cases happly : o.applyTo state.1 with
  | none => rw [if_neg (applyTo_eq_none_iff.1 happly)]
  | some cs' =>
    have hknown : o.criterionId ∈ state.1.map (·.id) := by
      by_contra hnew
      rw [applyTo_eq_none_iff.2 hnew] at happly
      cases happly
    rw [if_pos hknown, List.append_nil]

/-! ### All overrides -/

/-- What merging comes to: each criterion that is the first with its id has received what concerns
it, and the overrides without a criterion are listed. -/
structure Merged (cs : List Criterion) (os : List Override)
    (state : List Criterion × List (String × String)) : Prop where
  criteria : ∀ i : Nat,
    state.1[i]? = cs[i]?.map (Criterion.merged ((cs.map (·.id)).take i) os)
  dangling : state.2 = (os.filter fun o => o.criterionId ∉ cs.map (·.id)).map
    fun o => (o.language, o.criterionId)

namespace Merged

variable {os : List Override} {state : List Criterion × List (String × String)}

/-- Nothing but overrides is changed. -/
theorem plain (h : Merged cs os state) :
    state.1.map Criterion.plain = cs.map Criterion.plain := by
  refine List.ext_getElem? fun i => ?_
  rw [List.getElem?_map, List.getElem?_map, h.criteria, Option.map_map]
  exact congrArg (Option.map · _) (funext fun c => c.plain_merged _ _)

theorem ids (h : Merged cs os state) : state.1.map (·.id) = cs.map (·.id) := by
  have hids := congrArg (List.map (·.id)) h.plain
  rwa [List.map_map, List.map_map] at hids

/-- Merging one more override. -/
theorem step (h : Merged cs os state) (o : Override) :
    Merged cs (os ++ [o]) (Override.merge state o) := by
  constructor
  · intro i
    rw [getElem?_merge, h.ids, h.criteria, Option.map_map]
    exact congrArg (Option.map · _) (funext fun c => (c.merged_append _ _ _).symm)
  · rw [dangling_merge, h.ids, h.dangling, List.filter_append, List.map_append]
    congr 1
    -- Merging does not change the ids, so that the criteria known at the start are those known now.
    by_cases hknown : o.criterionId ∈ cs.map (·.id)
    · rw [if_pos hknown, List.filter_cons_of_neg (by simpa using hknown)]
      rfl
    · rw [if_neg hknown, List.filter_cons_of_pos (by simpa using hknown)]
      rfl

end Merged

/-- Merging all overrides. -/
theorem merged_foldl (cs : List Criterion) (os : List Override) :
    Merged cs os (os.foldl Override.merge (cs, [])) := by
  -- The overrides are merged from the first one on; the induction takes the last one off.
  induction os using List.reverseRecOn with
  | nil =>
    refine ⟨fun i => ?_, rfl⟩
    have hsame : Criterion.merged ((cs.map (·.id)).take i) [] = id := by
      funext c
      unfold Criterion.merged
      rw [List.foldl_nil, ite_self]
      rfl
    rw [hsame, Option.map_id]
    rfl
  | append_singleton os o ih =>
    rw [List.foldl_append]
    exact ih.step o

end Override

/-! ### Documents -/

namespace RubricDocument

/-- The value that the table of overrides gives to a parameter of a criterion under a tag. -/
def given? (doc : RubricDocument) (tag id name : String) : Option Json :=
  (doc.overrides.get? tag).bind fun byCriterion => (byCriterion.get? id).bind (·.get? name)

/-- The tags of the table of overrides, each with the ids under it, in the table's order. -/
def overridePairs (doc : RubricDocument) : List (String × String) :=
  doc.overrides.entries.flatMap fun (tag, byCriterion) => byCriterion.keys.map (tag, ·)

/-- The document without the overrides for which it has no criterion. -/
def attached (doc : RubricDocument) : RubricDocument :=
  { doc with
    overrides := doc.overrides.map fun byCriterion =>
      byCriterion.filter fun id => id ∈ doc.criteria.map (·.id) }

/-- Of the overrides for a criterion, the last one that has a parameter for a language stands under
the greatest spelling that has it. -/
theorem findSome?_overrideList (doc : RubricDocument) (id language name : String) :
    (doc.overrideList.reverse.findSome? fun o =>
        if o.criterionId = id ∧ o.language = Text.normal language then o.params.get? name else none)
      = doc.overrides.spelled? language fun byCriterion =>
          (byCriterion.get? id).bind (·.get? name) := by
  unfold overrideList Table.spelled? Table.last?
  rw [List.reverse_flatMap, List.findSome?_flatMap]
  refine congrArg (List.findSome? · _) (funext fun (tag, byCriterion) => ?_)
  rw [Function.comp_apply, ← List.map_reverse, List.findSome?_map]
  by_cases htag : Text.normal tag = Text.normal language
  · simp only [Function.comp_def, htag, and_true, if_true]
    exact byCriterion.last?_single id (·.get? name)
  · simp only [Function.comp_def, htag, and_false, if_false]
    exact List.findSome?_eq_none_iff.2 fun _ _ => rfl

theorem ids_overrideList (doc : RubricDocument) :
    doc.overrideList.map (fun o => (o.language, o.criterionId))
      = doc.overridePairs.map fun p => (Text.normal p.1, p.2) := by
  unfold overrideList overridePairs Table.keys
  simp only [List.map_flatMap, List.map_map, Function.comp_def]

theorem overrideList_attached (doc : RubricDocument) :
    doc.attached.overrideList
      = doc.overrideList.filter fun o => o.criterionId ∈ doc.criteria.map (·.id) := by
  unfold overrideList attached Table.map Table.filter
  simp only [List.flatMap_map, List.filter_flatMap, List.filter_map, Function.comp_def]

end RubricDocument

/-- Beside a criterion, the overrides under the greatest spelling of a language count. -/
theorem Criterion.get?_normalized (c : Criterion) (language : String) :
    c.normalized.overrides.get? (Text.normal language) = c.overrides.spelled? language some := by
  unfold normalized Table.spelled? Table.last?
  rw [Table.get?_ofList, ← List.map_reverse, List.find?_map, Option.map_map,
    ← List.findSome?_guard, List.map_findSome?]
  refine congrArg (List.findSome? · _) (funext fun e => ?_)
  simp only [Function.comp_def, Option.guard, decide_eq_true_eq]
  split <;> rfl

/-! ### The rubric of a document -/

section

variable {doc : RubricDocument} {i : Nat} {c : Criterion}

/-- The criterion stands at the place, and none before it has its id. -/
def RubricDocument.FirstAt (doc : RubricDocument) (i : Nat) (c : Criterion) : Prop :=
  doc.criteria[i]? = some c ∧ c.id ∉ (doc.criteria.map (·.id)).take i

/-- Beside the criterion no language is spelled in two ways. -/
def Criterion.Unambiguous (c : Criterion) : Prop :=
  ∀ tag ∈ c.overrides.keys, ∀ tag' ∈ c.overrides.keys,
    Text.normal tag = Text.normal tag' → tag = tag'

instance (c : Criterion) : Decidable c.Unambiguous :=
  inferInstanceAs (Decidable (∀ tag ∈ c.overrides.keys, ∀ tag' ∈ c.overrides.keys,
    Text.normal tag = Text.normal tag' → tag = tag'))

/-- The value that the document prescribes for a parameter of a criterion and a language. -/
inductive RubricDocument.Prescribes (doc : RubricDocument) (c : Criterion)
    (language name : String) : Option Json → Prop
  /-- The table of overrides has the parameter, and the greatest spelling that does counts. -/
  | table {v : Json} (h : LastSpelled language (doc.given? · c.id name) v) :
    Prescribes doc c language name (some v)
  /-- Only what stands beside the criterion has it. -/
  | inline {tag : String} {special : Params} {v : Json}
    (hfree : ∀ tag, Text.normal tag = Text.normal language → doc.given? tag c.id name = none)
    (htag : Text.normal tag = Text.normal language)
    (hspecial : c.overrides.get? tag = some special) (hv : special.get? name = some v) :
    Prescribes doc c language name (some v)
  /-- Neither does, and the criterion's own value counts, if there is one. -/
  | default
    (hfree : ∀ tag, Text.normal tag = Text.normal language → doc.given? tag c.id name = none)
    (hinline : ∀ tag special, Text.normal tag = Text.normal language →
      c.overrides.get? tag = some special → special.get? name = none) :
    Prescribes doc c language name (c.params.get? name)

namespace Rubric

/-- The criteria of a document are merged with its list of overrides. -/
private theorem merged_ofDocument (doc : RubricDocument) :
    Override.Merged (doc.criteria.map Criterion.normalized) doc.overrideList
      ((ofDocument doc).criteria, (ofDocument doc).danglingOverrides) :=
  Override.merged_foldl _ _

/-- Normal forms have the same ids. -/
private theorem ids_normalized (cs : List Criterion) :
    (cs.map Criterion.normalized).map (·.id) = cs.map (·.id) := by
  rw [List.map_map]
  rfl

/-- The criteria are those of the document, in its order, but for their overrides. -/
theorem plain_ofDocument (doc : RubricDocument) :
    (ofDocument doc).criteria.map Criterion.plain = doc.criteria.map Criterion.plain := by
  refine (merged_ofDocument doc).plain.trans ?_
  rw [List.map_map]
  rfl

/-- Overrides for ids that no criterion has are listed in the order of the table. -/
theorem dangling_ofDocument (doc : RubricDocument) :
    (ofDocument doc).danglingOverrides
      = (doc.overridePairs.filter fun p => p.2 ∉ doc.criteria.map (·.id)).map
        fun p => (Text.normal p.1, p.2) := by
  have hdangling : (ofDocument doc).danglingOverrides = _ := (merged_ofDocument doc).dangling
  rw [ids_normalized] at hdangling
  calc (ofDocument doc).danglingOverrides
      = (doc.overrideList.map fun o => (o.language, o.criterionId)).filter
          fun p => p.2 ∉ doc.criteria.map (·.id) := by
        rw [hdangling, List.filter_map]
        rfl
    _ = (doc.overridePairs.map fun p => (Text.normal p.1, p.2)).filter
          fun p => p.2 ∉ doc.criteria.map (·.id) := by
        rw [doc.ids_overrideList]
    _ = _ := by
        rw [List.filter_map]
        rfl

/-- A criterion that is the first with its id has the parameters of the table, of what stands beside
it, and its own ones. -/
theorem exists_merged (h : doc.FirstAt i c) :
    ∃ c', (ofDocument doc).criteria[i]? = some c' ∧ ∀ language name,
      (c'.effectiveParams language).get? name
        = ((doc.overrides.spelled? language fun byCriterion =>
              (byCriterion.get? c.id).bind (·.get? name)).or
            ((c.overrides.spelled? language some).bind (·.get? name))).or
          (c.params.get? name) := by
  obtain ⟨hget, hfirst⟩ := h
  refine ⟨doc.overrideList.foldl Criterion.receive c.normalized, ?_, fun language name => ?_⟩
  · have hmerged := (merged_ofDocument doc).criteria i
    rw [List.getElem?_map, hget, Option.map_some, Option.map_some, ids_normalized] at hmerged
    have hnormalized : c.normalized.id ∉ (doc.criteria.map (·.id)).take i := hfirst
    rw [hmerged, Criterion.merged, if_neg hnormalized]
  · have hparams : (doc.overrideList.foldl Criterion.receive c.normalized).params = c.params :=
      (Criterion.mk.inj (Criterion.plain_foldl_receive _ _)).2.2.2.2.2.1
    rw [Criterion.get?_effectiveParams, Criterion.special?_foldl_receive, hparams]
    change ((doc.overrideList.reverse.findSome? fun o =>
      if o.criterionId = c.id ∧ o.language = Text.normal language then o.params.get? name
      else none).or _).or _ = _
    rw [doc.findSome?_overrideList, Criterion.special?, c.get?_normalized]

/-- Where no language is spelled in two ways beside the criterion, its parameters are those that the
document prescribes. -/
private theorem prescribes_of_eq (hc : c.Unambiguous) {language name : String} {v : Option Json}
    (hv : v = ((doc.overrides.spelled? language fun byCriterion =>
        (byCriterion.get? c.id).bind (·.get? name)).or
      ((c.overrides.spelled? language some).bind (·.get? name))).or (c.params.get? name)) :
    doc.Prescribes c language name v := by
  cases htable : doc.overrides.spelled? language fun byCriterion =>
      (byCriterion.get? c.id).bind (·.get? name) with
  | some w =>
    rw [htable, Option.some_or, Option.some_or] at hv
    rw [hv]
    exact .table (Table.spelled?_eq_some_iff.1 htable)
  | none =>
    rw [htable, Option.none_or] at hv
    have hfree := Table.spelled?_eq_none_iff.1 htable
    cases hinline : c.overrides.spelled? language some with
    | none =>
      rw [hinline, Option.bind_none, Option.none_or] at hv
      rw [hv]
      refine .default hfree fun tag special htag hspecial => ?_
      have hnone := Table.spelled?_eq_none_iff.1 hinline tag htag
      rw [hspecial] at hnone
      cases hnone
    | some special =>
      obtain ⟨tag, htag, hspecial, -⟩ := Table.spelled?_some_iff.1 hinline
      rw [hinline, Option.bind_some] at hv
      cases hvalue : special.get? name with
      | some w =>
        rw [hvalue, Option.some_or] at hv
        rw [hv]
        exact .inline hfree htag hspecial hvalue
      | none =>
        rw [hvalue, Option.none_or] at hv
        rw [hv]
        refine .default hfree fun tag' special' htag' hspecial' => ?_
        -- There is one spelling only, so that nothing else stands beside the criterion.
        have hsame := hc tag' (Table.mem_keys_iff.2 ⟨_, hspecial'⟩) tag
          (Table.mem_keys_iff.2 ⟨_, hspecial⟩) (htag'.trans htag.symm)
        rw [hsame, hspecial] at hspecial'
        cases hspecial'
        exact hvalue

/-- The rubric has what the document says. -/
structure Merges (doc : RubricDocument) (r : Rubric) : Prop where
  version : r.version = doc.version
  weights : r.declaredWeights = doc.dimensions
  /-- The criteria are those of the document, in its order, but for their overrides. -/
  plain : r.criteria.map Criterion.plain = doc.criteria.map Criterion.plain
  /-- A criterion that is the first with its id has the parameters prescribed, for every language
  and for every parameter. -/
  params : ∀ i c, doc.FirstAt i c → ∃ c', r.criteria[i]? = some c' ∧ ∀ language name,
    doc.Prescribes c language name ((c'.effectiveParams language).get? name)
  /-- Overrides for ids that no criterion has are listed with the normal form of their tag, in the
  order of the table. -/
  dangling : r.danglingOverrides
    = (doc.overridePairs.filter fun p => p.2 ∉ doc.criteria.map (·.id)).map
      fun p => (Text.normal p.1, p.2)
  /-- They make no difference to the criteria. -/
  untouched : r.criteria = (ofDocument doc.attached).criteria

/-- Overrides from the list come to the same as those attached to their criteria. -/
private theorem criteria_attached (doc : RubricDocument) :
    (ofDocument doc).criteria = (ofDocument doc.attached).criteria := by
  refine List.ext_getElem? fun i => ?_
  rw [(merged_ofDocument doc).criteria, (merged_ofDocument doc.attached).criteria,
    doc.overrideList_attached]
  change _ = (doc.criteria.map Criterion.normalized)[i]?.map _
  cases hget : (doc.criteria.map Criterion.normalized)[i]? with
  | none => rfl
  | some c =>
    have hknown : c.id ∈ doc.criteria.map (·.id) := by
      rw [← ids_normalized]
      exact List.mem_map_of_mem (List.mem_of_getElem? hget)
    rw [Option.map_some, Option.map_some, Criterion.merged, Criterion.merged,
      Criterion.foldl_receive_filter fun o ho => by simpa [ho] using hknown]
    rfl

/-- In the rubric of a document that spells no language in two ways beside a criterion, parameters
are looked for in the table of overrides, beside the criterion and among its own ones, in this
order; what the table says of other ids is listed and nothing else. -/
theorem merges_ofDocument (h : ∀ c ∈ doc.criteria, c.Unambiguous) :
    Merges doc (ofDocument doc) := by
  refine ⟨rfl, rfl, plain_ofDocument doc, fun i c hc => ?_, dangling_ofDocument doc,
    criteria_attached doc⟩
  obtain ⟨c', hget, hparams⟩ := exists_merged hc
  have hunambiguous : c.Unambiguous := h c (List.mem_of_getElem? hc.1)
  exact ⟨c', hget, fun language name => prescribes_of_eq hunambiguous (hparams language name)⟩

end Rubric

end

/-! ### Several layers -/

/-- Two criteria with one id, overrides beside both of them, and a table of overrides that spells
one language in three ways and names a criterion that does not exist. -/
private def RubricDocument.layered : RubricDocument where
  version := "1"
  dimensions := .empty
  criteria := [
    ⟨"lint", .codeQuality, 60, "lint_issues", none,
      .ofList [("max_issues", .ofNat 0), ("partial_max_issues", .ofNat 9)],
      .ofList [("Python ", .ofList [("max_issues", .ofNat 1)]), ("go", .empty)]⟩,
    ⟨"lint", .testing, 40, "lint_issues", none, .empty,
      .ofList [("python", .ofList [("max_issues", .ofNat 2)])]⟩]
  overrides := .ofList [
    (" python", .ofList [("lint", .ofList [("max_issues", .ofNat 3)])]),
    ("PYTHON", .ofList [("lint", .ofList [("max_issues", .ofNat 4)]), ("tests", .empty)]),
    ("python", .ofList [("lint", .ofList [("count_warnings", .bool true)])])]

/-- The table is merged into the first of the two criteria. -/
theorem Rubric.merges_ofDocument_layered :
    (∀ c ∈ RubricDocument.layered.criteria, c.Unambiguous) ∧
      Rubric.Merges .layered (Rubric.ofDocument .layered) := by
  have hunambiguous : ∀ c ∈ RubricDocument.layered.criteria, c.Unambiguous := by decide +kernel
  exact ⟨hunambiguous, Rubric.merges_ofDocument hunambiguous⟩

example : (Rubric.ofDocument .layered).danglingOverrides = [("python", "tests")] := by
  decide +kernel

end Scorecard
