import Scorecard.Proofs.Components

/-!
# Paths that stay below where they start

A path is reduced to the names among its components. It has to be relative, must not lead up, and
has to have a name; points and slashes in excess are dropped. The names, one slash between any two,
are the form that all spellings of a path share: it is reduced to itself, and what is put behind a
root can be told from the root again, however the root is written.

* `Path.names`: the names among the components.
* `Path.stripPrefix?`: what is left of a path behind a root.
* `Path.ordinary_eq`: what a path is reduced to, or what is wrong with it.
* `Path.ordinary_normalizes`: all of this together.
-/

namespace Scorecard

namespace Path

/-- The name that a component is. -/
def Component.name? : Component → Option String
  | name s => some s
  | _ => none

/-- The names among the components. -/
def names (p : Path) : List String := p.components.filterMap Component.name?

/-- What is left of a path behind the components of `root`, if these come first. -/
def stripPrefix? (p root : Path) : Option Path :=
  (p.components.dropPrefix? root.components).map ofComponents

variable {names names' : List String}

/-! ### Reducing a path -/

/-- Only an absolute path has the top among its components, and there it comes first. -/
private theorem components_start (p : Path) :
    (p.isAbsolute = true ∧ ∃ inner, p.components = .top :: inner) ∨
      (p.isAbsolute = false ∧ .top ∉ p.components) := by
  -- No segment is read as the top; only a slash at the start is.
  have hinner : Component.top ∉ p.segments.filterMap componentOf := by
    rw [List.mem_filterMap]
    rintro ⟨s, -, hs⟩
    unfold componentOf at hs
    split at hs <;> cases hs
  unfold components
  -- A relative path may have a single point put first, which is not the top either.
  cases hstart : p.isAbsolute with
  | true => exact .inl ⟨rfl, _, rfl⟩
  | false =>
    refine .inr ⟨rfl, ?_⟩
    simp only [Bool.false_eq_true, ↓reduceIte]
    split
    · exact List.not_mem_cons_of_ne_of_not_mem Component.noConfusion hinner
    · exact hinner

/-- Two points anywhere behind the start decide, and without them all names are taken. -/
private theorem namesOf_eq {cs : List Component} (htop : .top ∉ cs) :
    namesOf cs = if .up ∈ cs then .error .leadsUp else .ok (cs.filterMap Component.name?) := by
  -- The induction follows the components up to the first two points, which end it.
  induction cs with
  | nil => rfl
  | cons c cs ih =>
    have ih := ih fun h => htop (List.mem_cons_of_mem _ h)
    cases c with
    | top => exact absurd List.mem_cons_self htop
    | up => rw [if_pos List.mem_cons_self, namesOf]
    | here =>
      have hup : .up ∈ Component.here :: cs ↔ .up ∈ cs :=
        ⟨List.mem_of_ne_of_mem Component.noConfusion, List.mem_cons_of_mem _⟩
      rw [namesOf, ih, List.filterMap_cons_none rfl]
      simp only [hup]
    | name s =>
      rw [namesOf, ih]
      -- Two points later on spoil the name that is found here.
      by_cases hup : .up ∈ cs
      · simp [hup, Functor.map, Except.map]
      · simp [hup, Functor.map, Except.map, Component.name?]

/-- What a path is reduced to, or what is wrong with it. -/
theorem ordinary_eq (p : Path) :
    p.ordinary = if p.isAbsolute then .error .absolute
      else if .up ∈ p.components then .error .leadsUp
      else if p.names = [] then .error .empty
      else .ok p.names := by
  unfold ordinary
  rcases components_start p with ⟨hstart, inner, hinner⟩ | ⟨hstart, htop⟩
  · rw [hstart, if_pos rfl, hinner]
    rfl
  -- Two points count before the lack of a name does.
  · rw [hstart, if_neg Bool.false_ne_true, namesOf_eq htop]
    by_cases hup : .up ∈ p.components
    · rw [if_pos hup, if_pos hup]
      rfl
    · rw [if_neg hup, if_neg hup]
      change (Except.ok p.names >>= _) = _
      cases p.names with
      | nil => rfl
      | cons n names => rfl

theorem ordinary_eq_ok_iff {p : Path} :
    p.ordinary = .ok names ↔
      p.isAbsolute = false ∧ .up ∉ p.components ∧ p.names ≠ [] ∧ names = p.names := by
  rw [ordinary_eq]
  cases p.isAbsolute with
  | true => simp
  | false =>
    by_cases hup : .up ∈ p.components
    · simp [hup]
    · by_cases hnames : p.names = []
      · simp [hup, hnames]
      · simp [hup, hnames, eq_comm]

theorem names_ne_nil_iff {p : Path} : p.names ≠ [] ↔ ∃ s, .name s ∈ p.components := by
  constructor
  · intro h
    obtain ⟨s, hs⟩ := List.exists_mem_of_ne_nil _ h
    obtain ⟨c, hc, hname⟩ := List.mem_filterMap.1 hs
    cases c <;> cases hname
    exact ⟨s, hc⟩
  · rintro ⟨s, hs⟩
    exact List.ne_nil_of_mem (List.mem_filterMap.2 ⟨_, hs, rfl⟩)

/-! ### Behind a root -/

theorem ofComponents_names (names : List String) :
    ofComponents (names.map .name) = ofNames names := by
  have htext : (names.map Component.name).map Component.text = names := by
    rw [List.map_map]
    exact List.map_id names
  -- Only the top would be written in another way, and it is not a name.
  cases names with
  | nil => rfl
  | cons n names => exact congrArg (fun parts => (⟨String.intercalate "/" parts⟩ : Path)) htext

/-- Names behind a root are what is left when the root is taken away. -/
theorem stripPrefix?_join (root : Path) (h : ∀ n ∈ names, IsName n) :
    (root.join (ofNames names)).stripPrefix? root = some (ofNames names) := by
  have hdrop : (root.join (ofNames names)).components.dropPrefix? root.components
      = some (names.map .name) :=
    List.dropPrefix?_eq_some_iff.2 ⟨_, components_join root h, beq_self_eq_true _⟩
  unfold stripPrefix?
  rw [hdrop, Option.map_some, ofComponents_names]

/-- Names lead to the same components behind a root only if they are the same. -/
theorem components_below_inj (root : Path) (h : ∀ n ∈ names, IsName n)
    (h' : ∀ n ∈ names', IsName n) :
    (Target.below root names).path.components = (Target.below root names').path.components
      ↔ names = names' := by
  change (root.join (ofNames names)).components = (root.join (ofNames names')).components ↔ _
  rw [components_join root h, components_join root h', List.append_cancel_left_eq]
  exact (List.map_injective_iff.2 fun _ _ => Component.name.inj).eq_iff

theorem path_below_inj (root : Path) (h : ∀ n ∈ names, IsName n) (h' : ∀ n ∈ names', IsName n) :
    (Target.below root names).path = (Target.below root names').path ↔ names = names' :=
  ⟨fun heq => (components_below_inj root h h').1 (congrArg components heq),
    fun heq => congrArg (fun names => (Target.below root names).path) heq⟩

/-- A path is accepted if it is not absolute, does not lead up and has a name among its components.
It is reduced to these names, with one slash between any two; what it is reduced to is reduced to
itself and is what is left behind any root. Two paths have the same place behind a root, by its text
and by its components, if they have the same names. -/
theorem ordinary_normalizes (root p p' : Path) :
    ((∃ names, p.ordinary = .ok names) ↔
      p.isAbsolute = false ∧ .up ∉ p.components ∧ ∃ s, .name s ∈ p.components) ∧
    (∀ names, p.ordinary = .ok names →
      (ofNames names).text = String.intercalate "/" p.names ∧
      (ofNames names).ordinary = .ok names ∧
      (root.join (ofNames names)).stripPrefix? root = some (ofNames names)) ∧
    ∀ names names', p.ordinary = .ok names → p'.ordinary = .ok names' →
      ((Target.below root names).path = (Target.below root names').path ↔ p.names = p'.names) ∧
      ((Target.below root names).path.components = (Target.below root names').path.components ↔
        p.names = p'.names) := by
  refine ⟨?_, ?_, ?_⟩
  · rw [← names_ne_nil_iff]
    constructor
    · rintro ⟨names, h⟩
      obtain ⟨hstart, hup, hne, -⟩ := ordinary_eq_ok_iff.1 h
      exact ⟨hstart, hup, hne⟩
    · rintro ⟨hstart, hup, hne⟩
      exact ⟨p.names, ordinary_eq_ok_iff.2 ⟨hstart, hup, hne, rfl⟩⟩
  · intro names h
    -- The names that a path is reduced to are names again, which all the rest needs.
    obtain ⟨hne, hisName⟩ := names_of_ordinary h
    obtain ⟨-, -, -, rfl⟩ := ordinary_eq_ok_iff.1 h
    exact ⟨rfl, ordinary_ofNames hisName hne, stripPrefix?_join root hisName⟩
  · intro names names' h h'
    obtain ⟨-, hisName⟩ := names_of_ordinary h
    obtain ⟨-, hisName'⟩ := names_of_ordinary h'
    obtain ⟨-, -, -, rfl⟩ := ordinary_eq_ok_iff.1 h
    obtain ⟨-, -, -, rfl⟩ := ordinary_eq_ok_iff.1 h'
    exact ⟨path_below_inj root hisName hisName', components_below_inj root hisName hisName'⟩

/-- Names that differ in their points only, behind a root that ends in a point and slashes. -/
theorem ordinary_normalizes_points :
    (⟨"./testing//..a/."⟩ : Path).ordinary = .ok ["testing", "..a"] ∧
    (ofNames ["testing", "..a"]).ordinary = .ok ["testing", "..a"] ∧
    ((⟨"store/.//"⟩ : Path).join (ofNames ["testing", "..a"])).stripPrefix? ⟨"store/.//"⟩
      = some (ofNames ["testing", "..a"]) ∧
    (Target.below ⟨"store/.//"⟩ ["testing", "..a"]).path
      ≠ (Target.below ⟨"store/.//"⟩ ["testing", "a"]).path := by
  have h : (⟨"./testing//..a/."⟩ : Path).ordinary = .ok ["testing", "..a"] := by decide +kernel
  have h' : (⟨"testing/./a"⟩ : Path).ordinary = .ok ["testing", "a"] := by decide +kernel
  have hnames : (⟨"./testing//..a/."⟩ : Path).names ≠ (⟨"testing/./a"⟩ : Path).names := by
    decide +kernel
  obtain ⟨-, hform, hsame⟩ :=
    ordinary_normalizes ⟨"store/.//"⟩ ⟨"./testing//..a/."⟩ ⟨"testing/./a"⟩
  obtain ⟨-, hordinary, hstrip⟩ := hform _ h
  exact ⟨h, hordinary, hstrip, fun heq => hnames (((hsame _ _ h h').1).1 heq)⟩

end Path

end Scorecard
