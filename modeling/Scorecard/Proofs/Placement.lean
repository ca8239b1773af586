import Scorecard.Proofs.Components
import Scorecard.Proofs.Persist
import Scorecard.Proofs.Totality

/-!
# Places of an evaluation's evidence

The place suggested for an item is made of the key of its dimension, the id of its criterion and
its own id, and the form of these makes every one of them a name. As no two items of an evaluation
have the same id, a store grants every item its place, and none of these places gets into the way
of another one or of the index.

* `Evidence.ordinary_defaultPath`: the place suggested is made of three names.
* `Path.Diverging`: paths neither of which goes on from the other one.
* `Evaluation.Placed`: the evidence has places of its own.
* `Evaluator.placed_of_evaluate`: the evidence of every evaluation has them, in every store.
-/

open Scorecard.Path (IsName)

namespace Scorecard

/-! ### Names -/

theorem Dimension.isName_key (d : Dimension) : IsName d.key := by
  cases d <;> decide

/-- The id of a criterion is a name: it has neither a slash nor a point. -/
theorem isName_of_isCriterionId {id : String} (h : isCriterionId id = true) : IsName id := by
  have hchars : id.toList ≠ [] ∧ ∀ c ∈ id.toList, isIdChar c = true := by
    unfold isCriterionId at h
    cases hid : id.toList with
    | nil =>
      rw [hid] at h
      exact absurd h Bool.false_ne_true
    | cons c rest =>
      rw [hid] at h
      simp only [Bool.and_eq_true, List.all_eq_true] at h
      rw [List.forall_mem_cons]
      exact ⟨List.cons_ne_nil _ _, by rw [isIdChar, h.1]; rfl, h.2⟩
  -- Names that are points have a point in them.
  have hpoint : '.' ∉ id.toList := fun hmem => absurd (hchars.2 _ hmem) (by decide)
  refine ⟨fun hempty => hchars.1 (by rw [hempty]; rfl), fun hmem => ?_, ?_, ?_⟩
  · exact absurd (hchars.2 _ hmem) (by decide)
  · rintro rfl
    exact hpoint (by decide)
  · rintro rfl
    exact hpoint (by decide)

/-- A text without slashes is a name once an ending is put behind it that has none either. -/
private theorem isName_append_json {id : String} (h : '/' ∉ id.toList) :
    IsName (id ++ ".json") := by
  have hmem (c : Char) (hc : c ∈ ".json".toList) : c ∈ (id ++ ".json").toList := by
    rw [String.toList_append]
    exact List.mem_append_right _ hc
  -- The ending has a letter, which neither the empty text nor points have.
  have hletter := hmem 'j' (by decide)
  refine ⟨?_, ?_, ?_, ?_⟩
  · intro heq
    rw [heq] at hletter
    exact absurd hletter (by decide)
  · rw [String.toList_append, List.mem_append, not_or]
    exact ⟨h, by decide⟩
  · intro heq
    rw [heq] at hletter
    exact absurd hletter (by decide)
  · intro heq
    rw [heq] at hletter
    exact absurd hletter (by decide)

namespace Evidence

/-- There is no slash in a number. -/
private theorem slash_notMem_twoDigits (n : Nat) : '/' ∉ (twoDigits n).toList := by
  have hdigits : '/' ∉ (toString n).toList := by
    rw [Nat.toString_eq_ofList_toDigits, String.toList_ofList]
    exact fun h => absurd (Nat.isDigit_of_mem_toDigits (by decide) (by decide) h) (by decide)
  unfold twoDigits
  -- A number with one digit gets a zero in front.
  split
  · rw [String.toList_append, List.mem_append, not_or]
    exact ⟨by decide, hdigits⟩
  · exact hdigits

/-- What is made of a name by a number and an ending is a name. -/
private theorem isName_file {c : String} (h : IsName c) (n : Nat) :
    IsName (makeId c n ++ ".json") := by
  apply isName_append_json
  unfold makeId
  rw [String.toList_append, String.toList_append, List.mem_append, List.mem_append, not_or, not_or]
  exact ⟨⟨h.no_slash, by decide⟩, slash_notMem_twoDigits n⟩

/-- The names of the place suggested for an item. -/
def placeNames (e : Evidence) : List String :=
  [e.dimension.key, e.criterionId, e.id ++ ".json"]

/-- The place of an item in a store: in the folder of its dimension, and in it in that of its
criterion. -/
def place (root : Path) (e : Evidence) : Target := .below root e.placeNames

/-- All names of a place are names, if the id of the criterion is one. -/
private theorem isName_placeNames {c : String} (h : IsName c) (d : Dimension) (n : Nat)
    (draft : Draft) : ∀ s ∈ (ofDraft c d n draft).placeNames, IsName s := by
  intro s hs
  simp only [placeNames, ofDraft, List.mem_cons, List.not_mem_nil, or_false] at hs
  rcases hs with rfl | rfl | rfl
  · exact d.isName_key
  · exact h
  · exact isName_file h n

/-- The place of an item is a path of names. -/
private theorem defaultPath_eq_ofNames {c id : String} (d : Dimension) (hc : IsName c)
    (hid : IsName (id ++ ".json")) :
    defaultPath d c id = .ofNames [d.key, c, id ++ ".json"] := by
  -- Each part is a path of one name, and joining them puts the names together.
  have hone (s : String) : (⟨s⟩ : Path) = .ofNames [s] := by
    unfold Path.ofNames
    rw [String.intercalate_singleton]
  have hsingle {s : String} (h : IsName s) : ∀ n ∈ [s], IsName n :=
    List.forall_mem_singleton.2 h
  have hfirst : ∀ n ∈ [d.key] ++ [c], IsName n := by
    rw [List.forall_mem_append]
    exact ⟨hsingle d.isName_key, hsingle hc⟩
  unfold defaultPath
  rw [hone d.key, hone c, hone (id ++ ".json"),
    Path.join_ofNames (hsingle d.isName_key) (List.cons_ne_nil _ _) (hsingle hc)
      (List.cons_ne_nil _ _),
    Path.join_ofNames hfirst (List.cons_ne_nil _ _) (hsingle hid) (List.cons_ne_nil _ _)]
  rfl

/-- The place suggested for an item is made of three names. -/
theorem ordinary_defaultPath {c : String} (h : IsName c) (d : Dimension) (n : Nat)
    (draft : Draft) :
    (ofDraft c d n draft).suggestedPath.ordinary = .ok (ofDraft c d n draft).placeNames := by
  change (defaultPath d c (makeId c n)).ordinary = _
  rw [defaultPath_eq_ofNames d h (isName_file h n)]
  exact Path.ordinary_ofNames (isName_placeNames h d n draft) (List.cons_ne_nil _ _)

/-- Items with different ids have different places. -/
private theorem placeNames_ne {e e' : Evidence} (h : e.id ≠ e'.id) :
    e.placeNames ≠ e'.placeNames := by
  intro heq
  -- The ids can be told from the last of the names.
  have hfile : e.id ++ ".json" = e'.id ++ ".json" := by
    simp only [placeNames, List.cons.injEq, and_true] at heq
    exact heq.2.2
  apply h
  have hlist := congrArg String.toList hfile
  rw [String.toList_append, String.toList_append] at hlist
  exact String.toList_inj.1 (List.append_cancel_right hlist)

end Evidence

/-! ### Apart from each other -/

/-- Neither of two paths is a continuation of the other one. -/
structure Path.Diverging (p q : Path) : Prop where
  notBeneath : ¬ p.components <+: q.components
  notAbove : ¬ q.components <+: p.components

/-- Places below one root are apart and diverge, if neither list of names comes first in the
other. -/
private theorem apart_below {names names' : List String} (root : Path)
    (h : ∀ n ∈ names, IsName n) (h' : ∀ n ∈ names', IsName n) (hne : ¬ names <+: names')
    (hne' : ¬ names' <+: names) :
    (root.join (.ofNames names)).Apart (root.join (.ofNames names')) ∧
      (root.join (.ofNames names)).Diverging (root.join (.ofNames names')) := by
  have hinj : Function.Injective Path.Component.name := fun _ _ heq => Path.Component.name.inj heq
  have hnames {xs ys : List String} (h : xs.map Path.Component.name <+: ys.map .name) :
      xs <+: ys := (List.prefix_map_iff_of_injective hinj).1 h
  -- Locations and components both go on from those of the root.
  refine ⟨⟨?_, ?_⟩, ?_, ?_⟩
  · rw [Path.location_below root h, Path.location_below root h', List.prefix_append_right_inj]
    exact hne
  · rw [Path.location_below root h, Path.location_below root h', List.prefix_append_right_inj]
    exact hne'
  · rw [Path.components_join root h, Path.components_join root h', List.prefix_append_right_inj]
    exact fun hp => hne (hnames hp)
  · rw [Path.components_join root h, Path.components_join root h', List.prefix_append_right_inj]
    exact fun hp => hne' (hnames hp)

/-! ### Evaluations -/

/-- The evidence of an evaluation has places of its own in a store. -/
structure Evaluation.Placed (ev : Evaluation) (r : Rubric) (st : Store) : Prop where
  /-- An item has the id and the dimension of a criterion, and an id made from that one. -/
  named : ∀ e ∈ ev.evidence, ∃ c ∈ r.criteria, e.criterionId = c.id ∧
    e.dimension = c.dimension ∧ ∃ n, e.id = Evidence.makeId c.id n
  distinct : (ev.evidence.map (·.id)).Nodup
  ne_indexKey : ∀ e ∈ ev.evidence, e.id ≠ Manifest.indexKey
  /-- The store grants every item its place. -/
  granted : Target.claim st.root ev.evidence = ev.evidence.map fun e => .ok (e.place st.root)
  /-- Below the root there are three components, all of them names. -/
  components : ∀ e ∈ ev.evidence, (e.place st.root).path.components =
    st.root.components ++ [.name e.dimension.key, .name e.criterionId, .name (e.id ++ ".json")]
  location : ∀ e ∈ ev.evidence, (e.place st.root).path.location =
    st.root.location ++ [e.dimension.key, e.criterionId, e.id ++ ".json"]
  apart : ev.evidence.Pairwise fun e e' =>
    (e.place st.root).path.Apart (e'.place st.root).path ∧
      (e.place st.root).path.Diverging (e'.place st.root).path
  apart_index : ∀ e ∈ ev.evidence,
    (e.place st.root).path.Apart st.indexPath ∧ (e.place st.root).path.Diverging st.indexPath

namespace Evaluator

variable {e : Evaluator} {s : Snapshot} {language : String} {cs : List Criterion}
  {ds : List Decided}

/-- Every item has been made from a draft, for one of the criteria. -/
private theorem DecidesAll.exists_ofDraft (h : e.DecidesAll s language cs ds) {item : Evidence}
    (hitem : item ∈ ds.flatMap (·.evidence)) :
    ∃ c ∈ cs, ∃ n draft, item = Evidence.ofDraft c.id c.dimension n draft := by
  -- The evidence of the criteria comes one after another, as the decisions do.
  induction h with
  | nil => exact absurd hitem List.not_mem_nil
  | @cons c d cs ds hhead _ ih =>
    obtain ⟨v, -, rfl⟩ := hhead
    rw [List.flatMap_cons, List.mem_append] at hitem
    rcases hitem with hitem | hitem
    · obtain ⟨⟨draft, i⟩, -, rfl⟩ := List.mem_map.1 hitem
      exact ⟨c, List.mem_cons_self, i + 1, draft, rfl⟩
    · obtain ⟨c', hc', hmade⟩ := ih hitem
      exact ⟨c', List.mem_cons_of_mem _ hc', hmade⟩

/-- No place starts with the name of the index, as it starts with a dimension. -/
private theorem head?_placeNames_ne (item : Evidence) :
    item.placeNames.head? ≠ some Target.indexName := by
  have hkey (d : Dimension) : d.key ≠ Target.indexName := by
    cases d <;> decide
  exact fun h => hkey item.dimension (Option.some.inj h)

/-- The parts of the place of an item are names, and are what the place suggested is made of. -/
private theorem Settles.placeNames_spec {r : Rubric} (h : e.Settles r s language ds)
    {item : Evidence} (hitem : item ∈ (assemble r ds).evidence) :
    (∀ n ∈ item.placeNames, IsName n) ∧ item.suggestedPath.ordinary = .ok item.placeNames := by
  obtain ⟨c, hc, n, draft, rfl⟩ := h.decided.exists_ofDraft hitem
  have hname := isName_of_isCriterionId (h.valid.criteria c hc).id
  exact ⟨Evidence.isName_placeNames hname _ _ _, Evidence.ordinary_defaultPath hname _ _ _⟩

/-- Whatever the rules have handed in, the evidence of an evaluation has places of its own in
every store. -/
theorem placed_of_evaluate {r : Rubric} {j : Journal} {ev : Evaluation}
    (h : (e.evaluate r s language).result j = .ok ev) (st : Store) : ev.Placed r st := by
  obtain ⟨ds, hsettles, rfl⟩ := evaluate_eq_ok_iff.1 h
  have hnodup := hsettles.decided.nodup_ids hsettles.valid.distinct
  have hpairwise : (assemble r ds).evidence.Pairwise fun item item' => item.id ≠ item'.id := by
    rwa [← List.pairwise_map, ← List.nodup_iff_pairwise_ne]
  have hname {item : Evidence} (hitem : item ∈ (assemble r ds).evidence) :=
    (hsettles.placeNames_spec hitem).1
  -- Of two lists of three names one starts the other only if they are the same.
  have hunrelated {item item' : Evidence} (hne : item.id ≠ item'.id) :
      ¬ item.placeNames <+: item'.placeNames :=
    fun hp => Evidence.placeNames_ne hne (hp.eq_of_length rfl)
  refine ⟨fun item hitem => ?_, hnodup, fun item hitem => ?_, ?_, fun item hitem => ?_,
    fun item hitem => ?_, ?_, fun item hitem => ?_⟩
  · obtain ⟨c, hc, n, draft, rfl⟩ := hsettles.decided.exists_ofDraft hitem
    exact ⟨c, hc, rfl, rfl, n, rfl⟩
  · obtain ⟨c, -, n, draft, rfl⟩ := hsettles.decided.exists_ofDraft hitem
    exact Evidence.makeId_ne_indexKey c.id n
  · refine Target.claim_eq_map st.root hnodup
      (fun item hitem => ⟨(hsettles.placeNames_spec hitem).2, head?_placeNames_ne item⟩) ?_
    rw [List.nodup_iff_pairwise_ne, List.pairwise_map]
    exact hpairwise.imp Evidence.placeNames_ne
  · exact Path.components_join st.root (hname hitem)
  · exact Path.location_below st.root (hname hitem)
  · exact hpairwise.imp_of_mem fun hitem hitem' hne =>
      apart_below st.root (hname hitem) (hname hitem') (hunrelated hne) (hunrelated hne.symm)
  · have hindex : ∀ n ∈ [Target.indexName], IsName n := by decide
    -- The index has one name, and the places of the items have three.
    have hindexPath : st.indexPath = st.root.join (.ofNames [Target.indexName]) := by
      unfold Store.indexPath Path.ofNames
      rw [String.intercalate_singleton]
    rw [hindexPath]
    refine apart_below st.root (hname hitem) hindex (fun hp => ?_) fun hp => ?_
    · exact absurd hp.length_le (by simp [Evidence.placeNames])
    · obtain ⟨rest, hrest⟩ := hp
      exact head?_placeNames_ne item (by rw [← hrest]; rfl)

end Evaluator

/-! ### Ids that look alike -/

/-- A rule that hands in `n` drafts for every criterion. -/
def Rule.lavish (n : Nat) : Rule where
  name := "lavish"
  validate _ := .ok ()
  allowsPartial _ := false
  judge c _ _ := .ok (.ofStatus c .met (List.replicate n ⟨.high, "found", .null⟩))

/-- Two criteria, of which one has the id of an item of the other. -/
def Rubric.lookalike : Rubric :=
  ⟨"1", .empty, [⟨"a", .testing, 50, "lavish", none, .empty, .empty⟩,
    ⟨"a-01", .testing, 50, "lavish", none, .empty, .empty⟩], []⟩

/-- More than a hundred items for each of two criteria with ids that look alike have places of
their own. -/
theorem Evaluator.placed_of_lookalike :
    ∃ ev, ((Evaluator.ofRegistry (.register .empty (.lavish 101))).evaluate .lookalike
        (.bare "Rust") "rust").result .empty = .ok ev ∧
      ev.Placed .lookalike (.ofRoot ⟨"a/../evidence//"⟩) := by
  have hissues : Rubric.lookalike.issues (.register .empty (.lavish 101)) = [] := by
    decide +kernel
  have hhonest : ∀ name rule,
      (Registry.register .empty (.lavish 101)).get? name = some rule → rule.Honest := by
    intro name rule hget c s params _
    unfold Registry.get? Registry.register at hget
    rw [Table.get?_insert] at hget
    split at hget
    · cases hget
      exact ⟨_, rfl, Verdict.honest_ofStatus (fun h => nomatch h)
        (List.ne_nil_of_length_eq_add_one (List.length_replicate (n := 101)))⟩
    · exact nomatch hget
  obtain ⟨ds, hds⟩ := Evaluator.exists_settles (e := .ofRegistry (.register .empty (.lavish 101)))
    "rust" (Rubric.issues_eq_nil_iff.1 hissues) (s := .bare "Rust") (by decide) hhonest
  have hev : ((Evaluator.ofRegistry (.register .empty (.lavish 101))).evaluate .lookalike
      (.bare "Rust") "rust").result .empty = .ok (assemble .lookalike ds) :=
    evaluate_eq_ok_iff.2 ⟨ds, hds, rfl⟩
  exact ⟨_, hev, placed_of_evaluate hev _⟩

end Scorecard
