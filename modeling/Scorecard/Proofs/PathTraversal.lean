import Scorecard.Proofs.Components
import Scorecard.Volume.Write

/-!
# Ways of paths

On its way from the top a path leads through the locations of all paths that it continues. Points
in between make no difference to the way, and names lead on from the place where they start, one
below the other. So the folder around a target has the same way as the target without its last
name, although it is written differently.

* `Path.LeadsThrough`: the locations on the way of a path.
* `Path.leadsThrough_join`: the way of a path with names behind it.
* `WriteTask.leadsThrough_folder`: the way of the folder around a target.
-/

namespace Scorecard

namespace Path

variable {names : List String}

/-- The path leads through the location: a path that it continues has it for its own. -/
def LeadsThrough (p : Path) (loc : Location) : Prop :=
  ∃ front, front <+: p.segments ∧ loc = front.foldl walk []

/-- Segments that do not lead up lead below the place where they start. -/
private theorem prefix_foldl_walk {segments : List String} (hup : ".." ∉ segments)
    (at_ : Location) : at_ <+: segments.foldl walk at_ := by
  induction segments generalizing at_ with
  | nil => exact List.prefix_rfl
  | cons segment segments ih =>
    rw [List.mem_cons, not_or] at hup
    have hwalk : at_ <+: walk at_ segment := by
      unfold walk
      rw [if_neg (Ne.symm hup.1)]
      split
      · exact List.prefix_rfl
      · exact List.prefix_append _ _
    exact hwalk.trans (ih hup.2 _)

/-- A path that nowhere leads up leads through the folders around its location, and through no
others. -/
theorem LeadsThrough.prefix_location {p : Path} {loc : Location} (h : p.LeadsThrough loc)
    (hup : ".." ∉ p.segments) : loc <+: p.location := by
  obtain ⟨front, ⟨rest, hfront⟩, rfl⟩ := h
  unfold location
  -- What comes behind the part passed leads further down.
  rw [← hfront, List.foldl_append]
  refine prefix_foldl_walk (fun hmem => hup ?_) _
  rw [← hfront]
  exact List.mem_append_right _ hmem

/-! ### Names behind a path -/

/-- What comes first in two lists together comes first in one of them, or is the first list with
what comes first in the second. -/
private theorem prefix_append_iff {α : Type} {front xs ys : List α} :
    front <+: xs ++ ys ↔ front <+: xs ∨ ∃ more, more <+: ys ∧ front = xs ++ more := by
  constructor
  · intro h
    rcases List.prefix_or_prefix_of_prefix h (List.prefix_append xs ys) with h' | ⟨more, rfl⟩
    · exact .inl h'
    · exact .inr ⟨more, (List.prefix_append_right_inj xs).1 h, rfl⟩
  · rintro (h | ⟨more, h, rfl⟩)
    · exact List.prefix_append_of_prefix h
    · exact (List.prefix_append_right_inj xs).2 h

/-- A path with names behind it leads through what the path leads through, and then from name to
name. -/
theorem leadsThrough_join (root : Path) (h : ∀ n ∈ names, IsName n) {loc : Location} :
    (root.join (ofNames names)).LeadsThrough loc ↔
      root.LeadsThrough loc ∨ ∃ front, front <+: names ∧ loc = root.location ++ front := by
  -- Names lead straight down, so that the location is spelt by them.
  have hfront {front : List String} (hp : front <+: names) :
      (root.segments ++ front).foldl walk [] = root.location ++ front := by
    rw [List.foldl_append]
    exact foldl_walk_names (fun n hn => h n (hp.subset hn)) _
  unfold LeadsThrough
  rw [segments_join root (isAbsolute_ofNames h), segments_ofNames h]
  simp only [prefix_append_iff]
  constructor
  · rintro ⟨front, hp | ⟨more, hp, rfl⟩, rfl⟩
    · exact .inl ⟨front, hp, rfl⟩
    · exact .inr ⟨more, hp, hfront hp⟩
  · rintro (⟨front, hp, rfl⟩ | ⟨more, hp, rfl⟩)
    · exact ⟨front, .inl hp, rfl⟩
    · exact ⟨root.segments ++ more, .inr ⟨more, hp, rfl⟩, (hfront hp).symm⟩

/-! ### Points on the way -/

/-- A segment that leads somewhere else. -/
private def moves (segment : String) : Bool := segment ≠ "."

/-- Segments that do not move lead nowhere else. -/
private theorem foldl_walk_filter (segments : List String) (at_ : Location) :
    (segments.filter moves).foldl walk at_ = segments.foldl walk at_ := by
  induction segments generalizing at_ with
  | nil => rfl
  | cons segment segments ih =>
    rw [List.filter_cons, List.foldl_cons]
    -- Only a single point stays where it is.
    by_cases h : segment = "."
    · have hwalk : walk at_ segment = at_ := by
        rw [walk, if_pos h]
      rw [if_neg (by simp [moves, h]), hwalk]
      exact ih at_
    · rw [if_pos (by simp [moves, h]), List.foldl_cons]
      exact ih _

/-- The segments that move pass by the same locations as all segments. -/
private theorem exists_prefix_filter_iff {segments : List String} {loc : Location} :
    (∃ front, front <+: segments.filter moves ∧ loc = front.foldl walk []) ↔
      ∃ front, front <+: segments ∧ loc = front.foldl walk [] := by
  constructor
  · rintro ⟨front, hp, rfl⟩
    obtain ⟨front', hp', rfl⟩ := List.prefix_filter_iff.1 hp
    exact ⟨front', hp', foldl_walk_filter front' []⟩
  · rintro ⟨front, hp, rfl⟩
    exact ⟨front.filter moves, hp.filter _, (foldl_walk_filter front []).symm⟩

/-- Two paths that differ in points only have the same way. -/
private theorem leadsThrough_congr {p q : Path}
    (h : p.segments.filter moves = q.segments.filter moves) {loc : Location} :
    p.LeadsThrough loc ↔ q.LeadsThrough loc := by
  unfold LeadsThrough
  rw [← exists_prefix_filter_iff, h, exists_prefix_filter_iff]

/-! ### Components written as a path -/

/-- The segment that a component is written as, if it leads somewhere else. -/
private def segmentOf? : Component → Option String
  | .top => none
  | .here => none
  | .up => some ".."
  | .name s => some s

/-- A component between slashes: not the top, and a name only if it can be read back as one. -/
private def IsInner : Component → Prop
  | .top => False
  | .name s => IsName s
  | _ => True

/-- The components of segments lose only those that do not move. -/
private theorem filterMap_componentOf_segmentOf? (segments : List String) :
    (segments.filterMap componentOf).filterMap segmentOf? = segments.filter moves := by
  rw [List.filterMap_filterMap, ← List.filterMap_eq_filter]
  -- A segment becomes a component that is written as the segment again.
  refine List.filterMap_congr fun segment _ => ?_
  unfold componentOf
  split
  · rfl
  · rfl
  · next hhere _ =>
    have hmoves : moves segment = true := decide_eq_true hhere
    rw [Option.guard, if_pos hmoves]
    rfl

/-- The components of a path lose only the segments that do not move. -/
private theorem filterMap_segmentOf?_components (p : Path) :
    p.components.filterMap segmentOf? = p.segments.filter moves := by
  rw [← filterMap_componentOf_segmentOf?]
  unfold components
  simp only
  split
  · rfl
  · split
    · rfl
    · rfl

/-- What comes of segments stands between slashes. -/
private theorem isInner_of_mem {p : Path} {c : Component}
    (h : c ∈ p.segments.filterMap componentOf) : IsInner c := by
  obtain ⟨segment, hsegment, hc⟩ := List.mem_filterMap.1 h
  unfold componentOf at hc
  split at hc
  · exact nomatch hc
  · cases hc
    trivial
  · next hhere hup =>
    cases hc
    obtain ⟨hne, hslash⟩ := ne_empty_of_mem_segments hsegment
    exact ⟨hne, hslash, hhere, hup⟩

/-- Only the first component of a path can be the top. -/
private theorem components_cases (p : Path) :
    ∃ inner, (∀ c ∈ inner, IsInner c) ∧ (p.components = .top :: inner ∨ p.components = inner) := by
  unfold components
  simp only
  split
  · exact ⟨_, fun c hc => isInner_of_mem hc, .inl rfl⟩
  · split
    -- A relative path may have a single point put in front.
    · refine ⟨_, fun c hc => ?_, .inr rfl⟩
      rcases List.mem_cons.1 hc with rfl | hc
      · trivial
      · exact isInner_of_mem hc
    · exact ⟨_, fun c hc => isInner_of_mem hc, .inr rfl⟩

/-- A path written from inner components has their segments. -/
private theorem filter_segments_ofNames {cs : List Component} (h : ∀ c ∈ cs, IsInner c) :
    (ofNames (cs.map Component.text)).segments.filter moves = cs.filterMap segmentOf? := by
  -- Components are written without slashes, and none is empty; so each is one segment.
  have hparts : ∀ s ∈ cs.map Component.text, s ≠ "" ∧ '/' ∉ s.toList := by
    intro s hs
    obtain ⟨c, hc, rfl⟩ := List.mem_map.1 hs
    have hinner := h c hc
    cases c with
    | top => exact hinner.elim
    | here => exact ⟨by decide, by decide⟩
    | up => exact ⟨by decide, by decide⟩
    | name s => exact ⟨hinner.ne_empty, hinner.no_slash⟩
  rw [segments_ofParts hparts, ← List.filterMap_eq_filter, List.filterMap_map]
  refine List.filterMap_congr fun c hc => ?_
  have hinner := h c hc
  cases c with
  | top => exact hinner.elim
  | here => rfl
  | up => rfl
  | name s =>
    have hmoves : moves s = true := decide_eq_true hinner.ne_here
    exact if_pos hmoves

/-- A path written from components has their segments. -/
private theorem filter_segments_ofComponents {cs inner : List Component}
    (h : ∀ c ∈ inner, IsInner c) (hcs : cs = .top :: inner ∨ cs = inner) :
    (ofComponents cs).segments.filter moves = cs.filterMap segmentOf? := by
  rcases hcs with rfl | rfl
  · have htop : ofComponents (.top :: inner)
        = ⟨"/" ++ (ofNames (inner.map Component.text)).text⟩ := rfl
    rw [htop, segments_slash]
    exact filter_segments_ofNames h
  · have hnames : ofComponents cs = ofNames (cs.map Component.text) := by
      cases cs with
      | nil => rfl
      | cons c cs =>
        have hinner := h c List.mem_cons_self
        cases c with
        | top => exact hinner.elim
        | _ => rfl
    rw [hnames]
    exact filter_segments_ofNames h

end Path

namespace WriteTask

open Scorecard.Path

variable {t : WriteTask} {root : Path} {names : List String}

/-- The folder around a target is written with other points than the names in front of the last
one, and with no other segments. -/
private theorem filter_segments_folder (hne : names ≠ [])
    (htarget : t.target = root.join (ofNames names)) (h : ∀ n ∈ names, IsName n) :
    t.folder.segments.filter moves
      = (root.join (ofNames names.dropLast)).segments.filter moves := by
  have hinit : ∀ n ∈ names.dropLast, IsName n := fun n hn => h n (List.dropLast_subset _ hn)
  have hcomponents : t.target.components
      = (root.join (ofNames names.dropLast)).components ++ [.name (names.getLast hne)] := by
    rw [htarget, components_join root h, components_join root hinit, List.append_assoc]
    congr 1
    rw [← List.map_singleton, ← List.map_append, List.dropLast_append_getLast]
  -- The folder is written from components; the target is not, so that the texts differ.
  have hparent : t.target.parent?
      = some (ofComponents (root.join (ofNames names.dropLast)).components) := by
    unfold parent?
    rw [hcomponents, List.getLast?_concat, List.dropLast_concat]
  obtain ⟨inner, hinner, hcases⟩ := components_cases (root.join (ofNames names.dropLast))
  rw [← filterMap_segmentOf?_components (root.join _),
    ← filter_segments_ofComponents hinner hcases]
  -- An empty path stands for the point where paths start.
  unfold folder
  rw [hparent]
  split
  · next h => exact nomatch h
  · next h =>
    rw [Option.some.inj h]
    rfl
  · next h => rw [Option.some.inj h]

/-- The folder around a target has the way of the root and of the names in front of the last
one. -/
theorem leadsThrough_folder (hne : names ≠ []) (htarget : t.target = root.join (ofNames names))
    (h : ∀ n ∈ names, IsName n) {loc : Location} :
    t.folder.LeadsThrough loc ↔
      root.LeadsThrough loc ∨ ∃ front, front <+: names.dropLast ∧ loc = root.location ++ front := by
  rw [leadsThrough_congr (filter_segments_folder hne htarget h)]
  exact leadsThrough_join root fun n hn => h n (List.dropLast_subset _ hn)

end WriteTask

end Scorecard
