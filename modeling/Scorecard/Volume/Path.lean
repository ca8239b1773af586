/-!
# Paths

A path is kept as it is written. Its components are what stands between the slashes; repeated
slashes, slashes at the end and points between slashes do not count.

* `Path.components`: the components of a path.
* `Path.join`, `Path.parent?`, `Path.fileName?`: putting paths together and taking them apart.
-/

namespace Scorecard

/-- A path as it is written. -/
structure Path where
  text : String
  deriving DecidableEq, Repr

namespace Path

/-- A component of a path. -/
inductive Component
  /-- The slash in front of an absolute path. -/
  | top
  /-- A point in front of a relative path. -/
  | here
  | up
  | name (s : String)
  deriving DecidableEq, Repr

/-- What stands between the slashes, where there is anything. -/
def segments (p : Path) : List String :=
  ((p.text.toList.splitOn '/').filter (· ≠ [])).map String.ofList

/-- Whether the path starts at the top. -/
def isAbsolute (p : Path) : Bool := p.text.toList.head? = some '/'

/-- Whether the path ends in a slash. -/
def endsInSlash (p : Path) : Bool := p.text.toList.getLast? = some '/'

/-- The component that a segment writes; a point writes none. -/
def componentOf : String → Option Component
  | "." => none
  | ".." => some .up
  | s => some (.name s)

/-- The components. -/
def components (p : Path) : List Component :=
  let inner := p.segments.filterMap componentOf
  if p.isAbsolute then .top :: inner
  else if p.segments.head? = some "." then .here :: inner
  else inner

/-- The path `q` as seen from `p`; an absolute `q` stays itself. -/
def join (p q : Path) : Path :=
  if q.isAbsolute then q
  else if p.text.isEmpty || p.endsInSlash then ⟨p.text ++ q.text⟩
  else ⟨p.text ++ "/" ++ q.text⟩

/-- The name at the end of a path, unless it ends in two points or has no components. -/
def fileName? (p : Path) : Option String :=
  match p.components.getLast? with
  | some (.name s) => some s
  | _ => none

/-- How a component is written. -/
def Component.text : Component → String
  | top => "/"
  | here => "."
  | up => ".."
  | name s => s

/-- The path written by some components, one slash between any two. -/
def ofComponents : List Component → Path
  | .top :: cs => ⟨"/" ++ String.intercalate "/" (cs.map Component.text)⟩
  | cs => ⟨String.intercalate "/" (cs.map Component.text)⟩

/-- The path without its last component; none for the top and for the empty path. -/
def parent? (p : Path) : Option Path :=
  match p.components.getLast? with
  | none => none
  | some .top => none
  | some _ => some (ofComponents p.components.dropLast)

/-- The extension of a name: what follows its last point, unless that point comes first. -/
def extension? (p : Path) : Option String :=
  match p.fileName? with
  | none => none
  | some name =>
    let (after, before) := name.toList.reverse.span (· != '.')
    match before with
    | _ :: _ :: _ => some (String.ofList after.reverse)
    | _ => none

/-- What is left of the segments `ss` after the segments `front`. -/
def dropFront : (front ss : List String) → Option (List String)
  | [], ss => some ss
  | f :: front, s :: ss => if f = s then dropFront front ss else none
  | _ :: _, [] => none

end Path

end Scorecard
