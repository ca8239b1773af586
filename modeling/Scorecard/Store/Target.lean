import Scorecard.Store.Error
import Scorecard.Evidence.Basic

/-!
# Targets

Before anything is written, each item claims the place of its file. An item is refused if its
id has been used, if its path could lead out of the store's root, if the place belongs to the
index, or if an earlier item has claimed it.

* `Path.ordinary`: the names of a path that stays below where it starts.
* `Target.claim`: the targets of items, in their order.
-/

namespace Scorecard

/-- The names that components are made of, if none of them is the top or leads up. -/
def Path.namesOf : List Path.Component → Except PathFlaw (List String)
  | [] => .ok []
  | .here :: rest => namesOf rest
  | .name s :: rest => (s :: ·) <$> namesOf rest
  | .up :: _ => .error .leadsUp
  | .top :: _ => .error .absolute

/-- The names of a path that stays below where it starts; there has to be one. -/
def Path.ordinary (p : Path) : Except PathFlaw (List String) := do
  match ← Path.namesOf p.components with
  | [] => .error .empty
  | names => return names

/-- The path of some names. -/
def Path.ofNames (names : List String) : Path := ⟨String.intercalate "/" names⟩

/-- The place of a file of the store. -/
structure Target where
  /-- The names that lead there from the root. -/
  names : List String
  path : Path
  deriving DecidableEq, Repr

namespace Target

/-- The name of the index. -/
def indexName : String := "index.json"

/-- The place below a root to which names lead. -/
def below (root : Path) (names : List String) : Target := ⟨names, root.join (.ofNames names)⟩

/-- The path as seen from the root. -/
def relative (t : Target) : Path := .ofNames t.names

/-- A place claimed by the item with an id. -/
structure Claim where
  target : Target
  id : String

/-- The place of an item, given the ids used and the places claimed before. -/
def ofItem (root : Path) (used : List String) (claims : List Claim) (e : Evidence) :
    Except StoreError Target :=
  if e.id ∈ used then .error (.duplicateId e.id)
  else match e.suggestedPath.ordinary with
    | .error flaw => .error (.invalidPath e.suggestedPath flaw)
    | .ok names =>
      let t := below root names
      if names.head? = some indexName then .error (.reservedPath t.path)
      else match claims.find? (·.target.names = names) with
        | some c => .error (.pathConflict t.path c.id)
        | none => .ok t

/-- The places of items that follow others. -/
def claimFrom (root : Path) (used : List String) (claims : List Claim) :
    List Evidence → List (Except StoreError Target)
  | [] => []
  | e :: rest =>
    let claimed := ofItem root used claims e
    let claims := match claimed with
      | .ok t => ⟨t, e.id⟩ :: claims
      | .error _ => claims
    claimed :: claimFrom root (e.id :: used) claims rest

/-- The places of items. -/
def claim (root : Path) (items : List Evidence) : List (Except StoreError Target) :=
  claimFrom root [] [] items

end Target

end Scorecard
