import Scorecard.Proofs.Path

/-!
# Components of paths put together

A path of names has these as its components. Put behind another path it adds them to the
components of that one, whatever that one looks like: it may be absolute or empty, start with a
point, or end in a slash.

* `Path.ordinary_ofNames`: a path of names stays below where it starts.
* `Path.components_join`: the components of a path with names behind it.
* `Path.join_ofNames`: names put behind names.
* `Path.endsInSlash_join`: a path with names behind it does not end in a slash.
-/

namespace Scorecard.Path

variable {names : List String}

/-! ### Paths of names -/

/-- A name is a component as it is written. -/
private theorem componentOf_name {s : String} (h : IsName s) : componentOf s = some (.name s) := by
  unfold componentOf
  split
  · exact absurd rfl h.ne_here
  · exact absurd rfl h.ne_up
  · rfl

/-- Names are components as they stand. -/
private theorem filterMap_componentOf (h : ∀ n ∈ names, IsName n) :
    names.filterMap componentOf = names.map .name := by
  rw [← List.filterMap_eq_map]
  exact List.filterMap_congr fun n hn => componentOf_name (h n hn)

/-- No name is a single point. -/
private theorem head?_ne_here (h : ∀ n ∈ names, IsName n) : names.head? ≠ some "." :=
  fun hhead => (h "." (List.mem_of_head? hhead)).ne_here rfl

/-- The names of components that are names. -/
private theorem namesOf_names (names : List String) :
    namesOf (names.map .name) = .ok names := by
  induction names with
  | nil => rfl
  | cons n names ih =>
    rw [List.map_cons, namesOf, ih]
    rfl

/-- The components of a path that starts at the same point as another one and has more segments,
all of them names. -/
private theorem components_eq_append {p q : Path} (habsolute : q.isAbsolute = p.isAbsolute)
    (hsegments : q.segments = p.segments ++ names) (h : ∀ n ∈ names, IsName n) :
    q.components = p.components ++ names.map .name := by
  -- No name is a point, so that only the first path can start with one.
  have hhead : (p.segments ++ names).head? = some "." ↔ p.segments.head? = some "." := by
    rw [List.head?_append]
    cases p.segments.head? with
    | none => simpa using head?_ne_here h
    | some s => rfl
  unfold components
  simp only [habsolute, hhead, hsegments, List.filterMap_append, filterMap_componentOf h]
  split
  · rfl
  · split
    · rfl
    · rfl

/-- A path of names has these as its components. -/
theorem components_ofNames (h : ∀ n ∈ names, IsName n) :
    (ofNames names).components = names.map .name := by
  have hempty : (⟨""⟩ : Path).components = [] := rfl
  rw [components_eq_append (p := ⟨""⟩) (isAbsolute_ofNames h) (segments_ofNames h) h, hempty,
    List.nil_append]

/-- A path of names, one at least, stays below where it starts. -/
theorem ordinary_ofNames (h : ∀ n ∈ names, IsName n) (hne : names ≠ []) :
    (ofNames names).ordinary = .ok names := by
  unfold ordinary
  rw [components_ofNames h, namesOf_names]
  cases names with
  | nil => exact absurd rfl hne
  | cons n rest => rfl

/-! ### Paths put together -/

/-- Where a path starts does not depend on what is put behind it. -/
theorem isAbsolute_join (p : Path) {q : Path} (h : q.isAbsolute = false) :
    (p.join q).isAbsolute = p.isAbsolute := by
  unfold join
  rw [if_neg (by rw [h]; exact Bool.false_ne_true)]
  -- Where there is a text in front, its first character decides, whatever follows.
  have happend (rest : String) (hne : p.text.toList ≠ []) :
      (⟨p.text ++ rest⟩ : Path).isAbsolute = p.isAbsolute := by
    obtain ⟨c, cs, hcs⟩ := List.exists_cons_of_ne_nil hne
    unfold isAbsolute
    rw [String.toList_append, hcs]
    rfl
  by_cases hnil : p.text.toList = []
  · have hempty : p.text = "" := String.toList_inj.1 hnil
    rw [if_pos (by rw [hempty]; rfl), hempty]
    unfold isAbsolute at h ⊢
    rw [String.toList_append, hempty]
    exact h
  · split
    · exact happend _ hnil
    · rw [String.append_assoc]
      exact happend _ hnil

/-- Names behind a path are added to its components. -/
theorem components_join (root : Path) (h : ∀ n ∈ names, IsName n) :
    (root.join (ofNames names)).components = root.components ++ names.map .name := by
  have hrelative := isAbsolute_ofNames h
  have hsegments : (root.join (ofNames names)).segments = root.segments ++ names := by
    rw [segments_join root hrelative, segments_ofNames h]
  exact components_eq_append (isAbsolute_join root hrelative) hsegments h

/-- A path of names does not end in a slash. -/
theorem endsInSlash_ofNames (h : ∀ n ∈ names, IsName n) : (ofNames names).endsInSlash = false := by
  rcases List.eq_nil_or_concat names with rfl | ⟨front, last, rfl⟩
  · rfl
  rw [List.concat_eq_append] at h ⊢
  obtain ⟨before, hbefore⟩ : ∃ before, (ofNames (front ++ [last])).text = before ++ last := by
    unfold ofNames
    by_cases hfront : front = []
    · refine ⟨"", ?_⟩
      rw [hfront, List.nil_append, String.intercalate_singleton, String.empty_append]
    · refine ⟨String.intercalate "/" front ++ "/", ?_⟩
      rw [String.intercalate_append_of_ne_nil hfront (List.cons_ne_nil _ _),
        String.intercalate_singleton]
  -- The text ends as the last name does, and that is not empty and has no slash.
  have hlast := h last (List.mem_append_right _ List.mem_cons_self)
  have hne : last.toList ≠ [] := fun hnil => hlast.ne_empty (String.toList_inj.1 hnil)
  unfold endsInSlash
  rw [hbefore, String.toList_append, List.getLast?_append_of_ne_nil _ hne]
  exact decide_eq_false fun hslash => hlast.no_slash (List.mem_of_getLast? hslash)

/-- The path of names, one at least, is not empty. -/
private theorem text_ofNames_ne (h : ∀ n ∈ names, IsName n) (hne : names ≠ []) :
    (ofNames names).text ≠ "" := by
  intro htext
  have hsegments := segments_ofNames h
  unfold segments at hsegments
  rw [htext] at hsegments
  exact hne hsegments.symm

/-- Names put behind names. -/
theorem join_ofNames {names' : List String} (h : ∀ n ∈ names, IsName n) (hne : names ≠ [])
    (h' : ∀ n ∈ names', IsName n) (hne' : names' ≠ []) :
    (ofNames names).join (ofNames names') = ofNames (names ++ names') := by
  -- Names neither are empty nor end in a slash, so that one slash is put between.
  have hstop : ¬ ((ofNames names).text.isEmpty || (ofNames names).endsInSlash) = true := by
    rw [endsInSlash_ofNames h, Bool.or_false, String.isEmpty_iff]
    exact text_ofNames_ne h hne
  unfold join
  rw [isAbsolute_ofNames h', if_neg Bool.false_ne_true, if_neg hstop]
  exact congrArg Path.mk (String.intercalate_append_of_ne_nil hne hne').symm

/-- A path with names behind it does not end in a slash. -/
theorem endsInSlash_join (root : Path) (h : ∀ n ∈ names, IsName n) (hne : names ≠ []) :
    (root.join (ofNames names)).endsInSlash = false := by
  have hnames : (ofNames names).text.toList ≠ [] :=
    fun hnil => text_ofNames_ne h hne (String.toList_inj.1 hnil)
  have happend (front : String) : (⟨front ++ (ofNames names).text⟩ : Path).endsInSlash = false := by
    rw [← endsInSlash_ofNames h]
    unfold endsInSlash
    rw [String.toList_append, List.getLast?_append_of_ne_nil _ hnames]
  unfold join
  rw [isAbsolute_ofNames h, if_neg Bool.false_ne_true]
  split
  · exact happend _
  · exact happend _

end Scorecard.Path
