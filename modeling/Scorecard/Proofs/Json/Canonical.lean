import Scorecard.Json.Basic
import Scorecard.Proofs.Table

/-!
# Canonical form

A document in canonical form has the members of an object in the order of their names. What of
each name stands in a document goes over into its canonical form, and nothing is lost where no
name stands twice. A canonical form is its own.

* `Json.canonicalMembers_eq`: the members are put into a table.
* `Json.mem_keys_canonicalMembers`: no name is lost, and none comes in.
* `Json.canonicalMembers_perm`: where no name stands twice, the members only change their order.
* `Json.canonical_canonical`: what is in canonical form stays as it is.
-/

namespace Scorecard.Json

/-- A member with its value in canonical form. -/
def canonicalMember (m : String × Json) : String × Json := (m.1, m.2.canonical)

theorem canonicalItems_eq (items : List Json) : canonicalItems items = items.map canonical := by
  induction items with
  | nil => rw [canonicalItems, List.map_nil]
  | cons v items ih => rw [canonicalItems, ih, List.map_cons]

/-- The members are put into the table one after another, each in its canonical form. -/
private theorem canonicalInto_eq (t : Table String Json) (members : List (String × Json)) :
    canonicalInto t members
      = (members.map canonicalMember).foldl (fun t e => t.insert e.1 e.2) t := by
  induction members generalizing t with
  | nil => rw [canonicalInto, List.map_nil, List.foldl_nil]
  | cons m members ih =>
    rw [canonicalInto, ih, List.map_cons, List.foldl_cons]
    rfl

/-- The members are put into a table, each in canonical form. -/
theorem canonicalMembers_eq (members : List (String × Json)) :
    canonicalMembers members = Table.ofList (members.map canonicalMember) := by
  rw [canonicalMembers, canonicalInto_eq]
  rfl

/-- The names of the members stay as they are. -/
private theorem map_canonicalMember_names (members : List (String × Json)) :
    (members.map canonicalMember).map (·.1) = members.map (·.1) := by
  rw [List.map_map]
  rfl

/-- No name is lost, and none comes in. -/
theorem mem_keys_canonicalMembers {members : List (String × Json)} {name : String} :
    name ∈ (canonicalMembers members).keys ↔ name ∈ members.map (·.1) := by
  rw [canonicalMembers_eq, Table.mem_keys_iff, Table.exists_get?_ofList_iff,
    map_canonicalMember_names]

/-- Where no name stands twice, the members only change their order. -/
theorem canonicalMembers_perm {members : List (String × Json)}
    (hnodup : (members.map (·.1)).Nodup) :
    (canonicalMembers members).entries.Perm (members.map canonicalMember) := by
  rw [canonicalMembers_eq]
  refine Table.entries_ofList_perm ?_
  rwa [map_canonicalMember_names]

/-- What is written of a number is in canonical form. -/
theorem canonical_toJson (n : Number) : n.toJson.canonical = n.toJson := by
  unfold Number.toJson ofFloat
  cases n with
  | int n fits =>
    rw [canonical]
    rfl
  | real x =>
    by_cases h : x.isFinite = true
    · simp only [h, if_true]
      rw [canonical]
      exact if_pos h
    · simp only [h, if_false, Bool.false_eq_true]
      rw [canonical]

/-- Only an object has the data of an object. -/
theorem exists_of_canonical_eq_obj {v : Json} {members : List (String × Json)}
    (h : v.canonical = (obj members).canonical) :
    ∃ members', v = .obj members' ∧ canonicalMembers members' = canonicalMembers members := by
  have hobj (members : List (String × Json)) :
      (obj members).canonical = .obj (canonicalMembers members).entries := by
    rw [canonical]
  rw [hobj] at h
  cases v with
  | obj members' =>
    rw [hobj] at h
    exact ⟨members', rfl, Table.ext (obj.inj h)⟩
  | num n =>
    rw [canonical] at h
    cases n with
    | int n fits => cases h
    | real x =>
      simp only [Number.toJson, ofFloat] at h
      -- What is written of a number is a number or `null`.
      split at h <;> cases h
  | _ =>
    rw [canonical] at h
    cases h

mutual

/-- What is in canonical form stays as it is. -/
theorem canonical_canonical (v : Json) : v.canonical.canonical = v.canonical := by
  cases v with
  | arr items =>
    have hitems := canonicalItems_canonicalItems items
    simp only [canonical, hitems]
  | obj members =>
    -- The entries of a table make up the table, and all values in this one are canonical.
    have hvalues : (canonicalMembers members).entries.map canonicalMember
        = (canonicalMembers members).entries := by
      refine (List.map_congr_left fun e he => ?_).trans (List.map_id _)
      rw [canonicalMembers_eq] at he
      have hmem := Table.mem_of_get?_ofList ((Table.mem_entries_iff _ _ _).1 he)
      obtain ⟨m, hm, heq⟩ := List.mem_map.1 hmem
      rw [show e = canonicalMember m from heq.symm]
      exact Prod.ext rfl (canonical_member members m hm)
    -- A table of members in canonical form is the table it has been made into.
    have htable : canonicalMembers (canonicalMembers members).entries
        = canonicalMembers members := by
      rw [canonicalMembers_eq, hvalues, Table.ofList_entries]
    simp only [canonical, htable]
  | num n => simp only [canonical, canonical_toJson]
  | null => simp only [canonical]
  | bool b => simp only [canonical]
  | str s => simp only [canonical]

/-- A second time changes nothing in items. -/
private theorem canonicalItems_canonicalItems (items : List Json) :
    canonicalItems (canonicalItems items) = canonicalItems items := by
  cases items with
  | nil => simp only [canonicalItems]
  | cons v rest =>
    have hv := canonical_canonical v
    have hrest := canonicalItems_canonicalItems rest
    simp only [canonicalItems, hv, hrest]

/-- A second time changes nothing in a member. -/
private theorem canonical_member (members : List (String × Json)) (m : String × Json)
    (h : m ∈ members) : m.2.canonical.canonical = m.2.canonical := by
  match members, h with
  | (name, v) :: rest, h =>
    rcases List.mem_cons.1 h with rfl | h
    · exact canonical_canonical v
    · exact canonical_member rest m h

end

end Scorecard.Json
