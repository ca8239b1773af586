import Mathlib.Data.List.Basic
import Scorecard.Proofs.Except
import Scorecard.Store.Target

/-!
# Where paths lead

Where a path leads does not depend on what stands in a volume, as long as it can be followed at
all: a point stays, two points lead up, and every other segment leads into the folder of that name.
A path that is made of names leads below the place where it starts, name by name.

* `Path.IsName`: a segment that leads into a folder or to a file.
* `Path.names_of_ordinary`: the parts of a path that stays below where it starts are names.
* `Path.segments_join`: the segments of two paths put together.
* `Path.location_below`: names lead below the place where they start.
* `Path.Apart`: paths that do not get into each other's way.
-/

namespace Scorecard.Path

/-- A segment that leads into a folder or to a file. -/
structure IsName (s : String) : Prop where
  ne_empty : s ≠ ""
  no_slash : '/' ∉ s.toList
  ne_here : s ≠ "."
  ne_up : s ≠ ".."

instance (s : String) : Decidable (IsName s) :=
  decidable_of_iff (s ≠ "" ∧ '/' ∉ s.toList ∧ s ≠ "." ∧ s ≠ "..")
    ⟨fun ⟨h1, h2, h3, h4⟩ => ⟨h1, h2, h3, h4⟩, fun ⟨h1, h2, h3, h4⟩ => ⟨h1, h2, h3, h4⟩⟩

/-! ### Segments -/

/-- What stands between the slashes of a text, where there is anything. -/
private def pieces (cs : List Char) : List String :=
  ((cs.splitOn '/').filter (· ≠ [])).map String.ofList

/-- The segments of a path are the pieces of its text. -/
private theorem segments_eq_pieces (p : Path) : p.segments = pieces p.text.toList := rfl

/-- An empty text has no pieces. -/
private theorem pieces_nil : pieces [] = [] := rfl

/-- A slash ends a piece. -/
private theorem pieces_append_slash (xs ys : List Char) :
    pieces (xs ++ '/' :: ys) = pieces xs ++ pieces ys := by
  unfold pieces
  rw [List.splitOn_append_cons_self, List.filter_append, List.map_append]

/-- What a text is split at is in none of the pieces. -/
private theorem notMem_of_mem_splitOn {a : Char} {xs piece : List Char}
    (h : piece ∈ xs.splitOn a) : a ∉ piece := by
  induction xs generalizing piece with
  | nil =>
    rw [List.splitOn_nil, List.mem_singleton] at h
    rw [h]
    exact List.not_mem_nil
  | cons x xs ih =>
    -- A separator starts a new piece, and any other character goes to the first one.
    rw [List.splitOn_cons_eq_if_modifyHead] at h
    split at h
    · rcases List.mem_cons.1 h with rfl | h
      · exact List.not_mem_nil
      · exact ih h
    · next hx =>
      obtain ⟨first, rest, hsplit⟩ := List.exists_cons_of_ne_nil (List.splitOn_ne_nil a xs)
      rw [hsplit, List.modifyHead_cons] at h
      rcases List.mem_cons.1 h with rfl | h
      · rw [List.mem_cons, not_or]
        refine ⟨fun hax => hx (by rw [hax]; exact beq_self_eq_true x), ih ?_⟩
        rw [hsplit]
        exact List.mem_cons_self
      · apply ih
        rw [hsplit]
        exact List.mem_cons_of_mem _ h

/-- A segment is not empty and has no slash. -/
theorem ne_empty_of_mem_segments {p : Path} {s : String} (h : s ∈ p.segments) :
    s ≠ "" ∧ '/' ∉ s.toList := by
  rw [segments_eq_pieces, pieces, List.mem_map] at h
  obtain ⟨piece, hpiece, rfl⟩ := h
  obtain ⟨hmem, hne⟩ := List.mem_filter.1 hpiece
  rw [String.toList_ofList]
  refine ⟨fun h => of_decide_eq_true hne ?_, notMem_of_mem_splitOn hmem⟩
  rw [← String.toList_ofList (l := piece), h]
  rfl

/-- A slash in front of a path adds no segment. -/
theorem segments_slash (text : String) : (⟨"/" ++ text⟩ : Path).segments = segments ⟨text⟩ := by
  rw [segments_eq_pieces, String.toList_append]
  exact pieces_append_slash [] text.toList

/-- Two paths put together have the segments of one after those of the other. -/
theorem segments_join (p : Path) {q : Path} (h : q.isAbsolute = false) :
    (p.join q).segments = p.segments ++ q.segments := by
  unfold join
  rw [if_neg (by rw [h]; exact Bool.false_ne_true)]
  split
  · next hend =>
    rw [segments_eq_pieces, String.toList_append]
    rw [Bool.or_eq_true, String.isEmpty_iff, endsInSlash, decide_eq_true_iff] at hend
    rcases hend with hempty | hslash
    · rw [segments_eq_pieces p, hempty]
      rfl
    · -- The slash at the end of `p` separates the two.
      obtain ⟨front, hfront⟩ := List.getLast?_eq_some_iff.1 hslash
      rw [segments_eq_pieces p, hfront, List.append_assoc, List.singleton_append,
        pieces_append_slash, pieces_append_slash, pieces_nil, List.append_nil]
      rfl
  · rw [segments_eq_pieces, String.toList_append, String.toList_append, List.append_assoc]
    exact pieces_append_slash _ _

/-! ### Paths of names -/

/-- The characters of a path of names. -/
private theorem toList_ofNames (names : List String) :
    (ofNames names).text.toList = ['/'].intercalate (names.map String.toList) :=
  String.toList_intercalate

/-- A path made of parts that are not empty and have no slashes has these as its segments. -/
theorem segments_ofParts {parts : List String}
    (h : ∀ s ∈ parts, s ≠ "" ∧ '/' ∉ s.toList) : (ofNames parts).segments = parts := by
  rcases List.eq_nil_or_concat parts with rfl | ⟨front, last, hparts⟩
  · rfl
  have hne : parts.map String.toList ≠ [] := by
    rw [hparts]
    simp
  -- No part is empty, so that none is taken for what stands between two slashes in a row.
  have hkeep : (parts.map String.toList).filter (· ≠ []) = parts.map String.toList := by
    rw [List.filter_eq_self]
    intro piece hpiece
    obtain ⟨n, hn, rfl⟩ := List.mem_map.1 hpiece
    exact decide_eq_true fun hnil => (h n hn).1 (String.toList_inj.1 hnil)
  rw [segments_eq_pieces, toList_ofNames, pieces, List.splitOn_intercalate _ _ hne, hkeep,
    List.map_map]
  · calc parts.map (String.ofList ∘ String.toList)
      _ = parts.map id := List.map_congr_left fun n _ => String.ofList_toList
      _ = parts := List.map_id parts
  · intro piece hpiece
    obtain ⟨n, hn, rfl⟩ := List.mem_map.1 hpiece
    exact (h n hn).2

/-- A path of names has these as its segments. -/
theorem segments_ofNames {names : List String} (h : ∀ n ∈ names, IsName n) :
    (ofNames names).segments = names :=
  segments_ofParts fun n hn => ⟨(h n hn).ne_empty, (h n hn).no_slash⟩

/-- A path of names does not start at the top. -/
theorem isAbsolute_ofNames {names : List String} (h : ∀ n ∈ names, IsName n) :
    (ofNames names).isAbsolute = false := by
  cases names with
  | nil => rfl
  | cons n rest =>
    obtain ⟨hne, hslash, -, -⟩ := h n List.mem_cons_self
    obtain ⟨c, cs, hcs⟩ : ∃ c cs, n.toList = c :: cs :=
      List.exists_cons_of_ne_nil fun hnil => hne (String.toList_inj.1 hnil)
    rw [hcs, List.mem_cons, not_or] at hslash
    rw [isAbsolute, toList_ofNames, List.map_cons, hcs, List.intercalate_cons_cons_left,
      List.head?_cons]
    exact decide_eq_false fun hc => hslash.1 (Option.some.inj hc).symm

/-! ### Ordinary paths -/

/-- A segment that is a name is neither one point nor two. -/
private theorem componentOf_eq_name {s t : String} (h : componentOf s = some (.name t)) :
    t = s ∧ s ≠ "." ∧ s ≠ ".." := by
  unfold componentOf at h
  split at h
  · exact nomatch h
  · exact nomatch h
  · next hhere hup => exact ⟨(Component.name.inj (Option.some.inj h)).symm, hhere, hup⟩

/-- A name among the components is a segment. -/
private theorem isName_of_mem_components {p : Path} {s : String}
    (h : Component.name s ∈ p.components) : IsName s := by
  -- What is put in front of the components is no name.
  have hinner : Component.name s ∈ p.segments.filterMap componentOf := by
    unfold components at h
    simp only at h
    split at h
    · exact List.mem_of_ne_of_mem Component.noConfusion h
    · split at h
      · exact List.mem_of_ne_of_mem Component.noConfusion h
      · exact h
  obtain ⟨segment, hsegment, hname⟩ := List.mem_filterMap.1 hinner
  obtain ⟨rfl, hhere, hup⟩ := componentOf_eq_name hname
  obtain ⟨hne, hslash⟩ := ne_empty_of_mem_segments hsegment
  exact ⟨hne, hslash, hhere, hup⟩

/-- The names come from the components. -/
private theorem name_mem_of_namesOf {cs : List Component} {names : List String}
    (h : namesOf cs = .ok names) : ∀ n ∈ names, Component.name n ∈ cs := by
  induction cs generalizing names with
  | nil =>
    cases h
    exact fun n hn => absurd hn List.not_mem_nil
  | cons c cs ih =>
    intro n hn
    cases c with
    | top => exact nomatch h
    | up => exact nomatch h
    | here => exact List.mem_cons_of_mem _ (ih h n hn)
    | name s =>
      unfold namesOf at h
      obtain ⟨rest, hrest, rfl⟩ := Except.map_eq_ok_iff.1 h
      rcases List.mem_cons.1 hn with rfl | hn
      · exact List.mem_cons_self
      · exact List.mem_cons_of_mem _ (ih hrest n hn)

/-- The parts of a path that stays below where it starts are names, one at least. -/
theorem names_of_ordinary {p : Path} {names : List String} (h : p.ordinary = .ok names) :
    names ≠ [] ∧ ∀ n ∈ names, IsName n := by
  unfold ordinary at h
  obtain ⟨all, hall, h⟩ := Except.bind_eq_ok_iff.1 h
  cases all with
  | nil => exact nomatch h
  | cons first rest =>
    cases h
    exact ⟨List.cons_ne_nil _ _,
      fun n hn => isName_of_mem_components (name_mem_of_namesOf hall n hn)⟩

/-! ### Locations -/

/-- Where a segment leads from a location. -/
def walk (loc : Location) (segment : String) : Location :=
  if segment = "." then loc else if segment = ".." then loc.dropLast else loc ++ [segment]

/-- Where a path leads, if it can be followed. -/
def location (p : Path) : Location := p.segments.foldl walk []

/-- Names lead on from any location, name by name. -/
theorem foldl_walk_names {names : List String} (h : ∀ n ∈ names, IsName n) (loc : Location) :
    names.foldl walk loc = loc ++ names := by
  induction names generalizing loc with
  | nil => rw [List.foldl_nil, List.append_nil]
  | cons n names ih =>
    have hn := h n List.mem_cons_self
    -- A name is neither of the two segments that lead elsewhere.
    have hwalk : walk loc n = loc ++ [n] := by
      rw [walk, if_neg hn.ne_here, if_neg hn.ne_up]
    rw [List.foldl_cons, hwalk, ih fun m hm => h m (List.mem_cons_of_mem _ hm), List.append_assoc,
      List.singleton_append]

/-- Names lead below the place where they start. -/
theorem location_below (root : Path) {names : List String} (h : ∀ n ∈ names, IsName n) :
    (root.join (ofNames names)).location = root.location ++ names := by
  unfold location
  rw [segments_join root (isAbsolute_ofNames h), segments_ofNames h, List.foldl_append]
  exact foldl_walk_names h _

/-! ### Apart from each other -/

/-- Neither of two paths leads to where the other one leads, or to a place beneath that. -/
structure Apart (p q : Path) : Prop where
  notBeneath : ¬ p.location <+: q.location
  notAbove : ¬ q.location <+: p.location

theorem Apart.symm {p q : Path} (h : p.Apart q) : q.Apart p := ⟨h.notAbove, h.notBeneath⟩

end Scorecard.Path
