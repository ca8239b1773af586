import Scorecard.Proofs.Path

/-!
# Places granted

A place that is granted to an item lies below the root of the store, at the end of some names, and
is not the place of the index. No two items are granted the same names, and an item to which a
place is granted is the first with its id.

* `Target.Granted`: what every place granted has in common.
* `Target.of_mem_claim`: what a grant says of a place and its item.
* `Target.pairwise_claim`: no names are granted twice.
* `Target.pairwise_id_claim`: no two items with the same id are granted a place.
* `Target.claim_eq_map`: when every item is granted its place.
-/

namespace Scorecard.Target

variable {root : Path} {used : List String} {claims : List Claim} {items : List Evidence}
  {e : Evidence} {t : Target}

/-- A place below the root, at the end of some names, that does not belong to the index. -/
structure Granted (root : Path) (t : Target) : Prop where
  eq_below : t = below root t.names
  ne_nil : t.names ≠ []
  isName : ∀ n ∈ t.names, Path.IsName n
  ne_index : t.names.head? ≠ some indexName

/-- The location of a place granted. -/
theorem Granted.location (h : Granted root t) : t.path.location = root.location ++ t.names := by
  rw [h.eq_below]
  exact Path.location_below root h.isName

/-- A place is granted if the id of its item is not used, the path suggested for it is made of
names, these do not start at the index, and nobody has claimed them. -/
theorem ofItem_eq_ok (h : ofItem root used claims e = .ok t) :
    Granted root t ∧ e.id ∉ used ∧ ∀ c ∈ claims, c.target.names ≠ t.names := by
  unfold ofItem at h
  split at h
  · exact nomatch h
  · next hunused =>
    split at h
    · exact nomatch h
    · next names hnames =>
      simp only at h
      split at h
      · exact nomatch h
      · next hindex =>
        split at h
        · exact nomatch h
        · next hfree =>
          cases h
          obtain ⟨hne, hisName⟩ := Path.names_of_ordinary hnames
          refine ⟨⟨rfl, hne, hisName, hindex⟩, hunused, fun c hc heq => ?_⟩
          exact List.find?_eq_none.1 hfree c hc (decide_eq_true heq)

/-- The claims after an item has made its own. -/
private def claimsAfter (claims : List Claim) (e : Evidence) :
    Except StoreError Target → List Claim
  | .ok t => ⟨t, e.id⟩ :: claims
  | .error _ => claims

/-- The first item is answered first, and counts for all others. -/
private theorem claimFrom_cons (root : Path) (used : List String) (claims : List Claim)
    (e : Evidence) (rest : List Evidence) :
    claimFrom root used claims (e :: rest)
      = ofItem root used claims e ::
        claimFrom root (e.id :: used) (claimsAfter claims e (ofItem root used claims e)) rest := by
  rw [claimFrom]
  cases ofItem root used claims e with
  | error flaw => rfl
  | ok t => rfl

/-- Claims that have been granted stay granted. -/
private theorem mem_claimsAfter {c : Claim} (result : Except StoreError Target) (hc : c ∈ claims) :
    c ∈ claimsAfter claims e result := by
  cases result with
  | error flaw => exact hc
  | ok t => exact List.mem_cons_of_mem _ hc

/-- Every item has its answer. -/
theorem length_claim (root : Path) (items : List Evidence) :
    (claim root items).length = items.length := by
  have hfrom (used : List String) (claims : List Claim) :
      (claimFrom root used claims items).length = items.length := by
    induction items generalizing used claims with
    | nil => rfl
    | cons e rest ih => rw [claimFrom_cons, List.length_cons, List.length_cons, ih]
  exact hfrom [] []

/-- A place that is granted lies below the root, has not been claimed before, and goes to the first
item with the id. -/
private theorem of_mem_claimFrom
    (h : (e, Except.ok t) ∈ items.zip (claimFrom root used claims items)) :
    Granted root t ∧ e.id ∉ used ∧ (∀ c ∈ claims, c.target.names ≠ t.names) ∧
      items.find? (·.id = e.id) = some e := by
  induction items generalizing used claims with
  | nil => exact absurd h List.not_mem_nil
  | cons e' rest ih =>
    rw [claimFrom_cons, List.zip_cons_cons] at h
    rcases List.mem_cons.1 h with heq | h
    · obtain ⟨rfl, hok⟩ := Prod.mk.inj heq
      obtain ⟨hgranted, hunused, hfree⟩ := ofItem_eq_ok hok.symm
      refine ⟨hgranted, hunused, hfree, ?_⟩
      exact List.find?_cons_of_pos (decide_eq_true rfl)
    · obtain ⟨hgranted, hunused, hfree, hfirst⟩ := ih h
      rw [List.mem_cons, not_or] at hunused
      refine ⟨hgranted, hunused.2, fun c hc => hfree c (mem_claimsAfter _ hc), ?_⟩
      -- The item in front has another id, as that one is used.
      rw [List.find?_cons_of_neg fun hid => hunused.1 (of_decide_eq_true hid).symm]
      exact hfirst

/-- A place granted lies below the root, and its item is the first with its id. -/
theorem of_mem_claim (h : (e, Except.ok t) ∈ items.zip (claim root items)) :
    Granted root t ∧ items.find? (·.id = e.id) = some e := by
  -- At the beginning no id is used and nothing is claimed.
  obtain ⟨hgranted, -, -, hfirst⟩ := of_mem_claimFrom h
  exact ⟨hgranted, hfirst⟩

/-- No names are granted twice. -/
private theorem pairwise_claimFrom (root : Path) (used : List String) (claims : List Claim)
    (items : List Evidence) :
    (items.zip (claimFrom root used claims items)).Pairwise fun a b =>
      ∀ t u, a.2 = .ok t → b.2 = .ok u → t.names ≠ u.names := by
  induction items generalizing used claims with
  | nil => exact .nil
  | cons e rest ih =>
    rw [claimFrom_cons, List.zip_cons_cons, List.pairwise_cons]
    refine ⟨?_, ih _ _⟩
    rintro ⟨e', result⟩ hmem t u ht rfl
    -- What the first item is granted is claimed when the others make their claims.
    obtain ⟨-, -, hfree, -⟩ := of_mem_claimFrom hmem
    apply hfree ⟨t, e.id⟩
    change ofItem root used claims e = .ok t at ht
    rw [ht]
    exact List.mem_cons_self

/-- No names are granted twice. -/
theorem pairwise_claim (root : Path) (items : List Evidence) :
    (items.zip (claim root items)).Pairwise fun a b =>
      ∀ t u, a.2 = .ok t → b.2 = .ok u → t.names ≠ u.names :=
  pairwise_claimFrom root [] [] items

/-- No two places granted are the same. -/
theorem pairwise_location_claim (root : Path) (items : List Evidence) :
    (items.zip (claim root items)).Pairwise fun a b =>
      ∀ t u, a.2 = .ok t → b.2 = .ok u → t.path.location ≠ u.path.location := by
  refine (pairwise_claim root items).imp_of_mem ?_
  rintro ⟨e, _⟩ ⟨e', _⟩ ha hb hnames t u rfl rfl hlocation
  rw [(of_mem_claim ha).1.location, (of_mem_claim hb).1.location] at hlocation
  exact hnames t u rfl rfl (List.append_cancel_left hlocation)

/-- No item gets a place after another one with its id. -/
private theorem pairwise_id_claimFrom (root : Path) (used : List String) (claims : List Claim)
    (items : List Evidence) :
    (items.zip (claimFrom root used claims items)).Pairwise fun a b =>
      ∀ t, b.2 = .ok t → a.1.id ≠ b.1.id := by
  induction items generalizing used claims with
  | nil => exact .nil
  | cons e rest ih =>
    rw [claimFrom_cons, List.zip_cons_cons, List.pairwise_cons]
    refine ⟨?_, ih _ _⟩
    rintro ⟨e', result⟩ hmem t rfl
    -- The id of the first item is used when the others make their claims.
    obtain ⟨-, hunused, -, -⟩ := of_mem_claimFrom hmem
    exact fun heq => hunused (List.mem_cons.2 (.inl heq.symm))

/-- An item to which a place is granted has another id than all items before it. -/
theorem pairwise_id_claim (root : Path) (items : List Evidence) :
    (items.zip (claim root items)).Pairwise fun a b => ∀ t, b.2 = .ok t → a.1.id ≠ b.1.id :=
  pairwise_id_claimFrom root [] [] items

/-! ### Where nothing is refused -/

/-- Where all ids are different and all names can be granted, every item gets the place that it
suggests. -/
private theorem claimFrom_eq_map {names : Evidence → List String}
    (hids : (items.map (·.id)).Nodup) (hunused : ∀ e ∈ items, e.id ∉ used)
    (hnames : ∀ e ∈ items,
      e.suggestedPath.ordinary = .ok (names e) ∧ (names e).head? ≠ some indexName)
    (hdistinct : (items.map names).Nodup)
    (hfree : ∀ e ∈ items, ∀ c ∈ claims, c.target.names ≠ names e) :
    claimFrom root used claims items = items.map fun e => .ok (below root (names e)) := by
  induction items generalizing used claims with
  | nil => rfl
  | cons e rest ih =>
    rw [List.map_cons, List.nodup_cons] at hids hdistinct
    obtain ⟨hordinary, hindex⟩ := hnames e List.mem_cons_self
    have hunclaimed : claims.find? (·.target.names = names e) = none :=
      List.find?_eq_none.2 fun c hc heq =>
        hfree e List.mem_cons_self c hc (of_decide_eq_true heq)
    have hitem : ofItem root used claims e = .ok (below root (names e)) := by
      unfold ofItem
      rw [if_neg (hunused e List.mem_cons_self), hordinary]
      simp only
      rw [if_neg hindex, hunclaimed]
    rw [claimFrom_cons, hitem, List.map_cons]
    refine congrArg _ (ih hids.2 (fun e' he' => ?_)
      (fun e' he' => hnames e' (List.mem_cons_of_mem _ he')) hdistinct.2 fun e' he' c hc => ?_)
    · rw [List.mem_cons, not_or]
      refine ⟨fun heq => hids.1 (heq ▸ List.mem_map_of_mem he'), ?_⟩
      exact hunused e' (List.mem_cons_of_mem _ he')
    · -- The only new claim is that of the item in front.
      rcases List.mem_cons.1 hc with rfl | hc
      · exact fun heq => hdistinct.1 (List.mem_map.2 ⟨e', he', heq.symm⟩)
      · exact hfree e' (List.mem_cons_of_mem _ he') c hc

/-- Every item is granted its place where no two items have the same id or the same names, and no
names start at the index. -/
theorem claim_eq_map {names : Evidence → List String} (root : Path)
    (hids : (items.map (·.id)).Nodup)
    (hnames : ∀ e ∈ items,
      e.suggestedPath.ordinary = .ok (names e) ∧ (names e).head? ≠ some indexName)
    (hdistinct : (items.map names).Nodup) :
    claim root items = items.map fun e => .ok (below root (names e)) :=
  claimFrom_eq_map hids (fun _ _ => List.not_mem_nil) hnames hdistinct
    fun _ _ _ hc => absurd hc List.not_mem_nil

end Scorecard.Target
