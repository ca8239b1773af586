import Mathlib.Data.List.Nodup
import Scorecard.Evidence.Manifest

/-!
# Identities of evidence

The identity of an item is the id of its criterion, a hyphen and a number in at least two digits.
As digits are no hyphens, the last hyphen tells the two parts from each other, whatever hyphens
the id of the criterion has.

* `Evidence.makeId_inj`: an identity belongs to one criterion and one number.
* `Evidence.makeId_ne_indexKey`: no identity is the key of the index.
* `Evidence.ids_ofDrafts`, `Evidence.nodup_ids_ofDrafts`: the identities of a criterion's items.
-/

namespace Scorecard.Evidence

/-! ### Numbers -/

/-- A number is written with its digits. -/
private theorem toList_toString (n : Nat) : (toString n).toList = Nat.toDigits 10 n := by
  rw [Nat.toString_eq_ofList_toDigits, String.toList_ofList]

/-- A number in at least two digits is read as that number. -/
private theorem ofDigitChars_twoDigits (n : Nat) :
    Nat.ofDigitChars 10 (twoDigits n).toList 0 = n := by
  unfold twoDigits
  split
  · rw [String.toList_append, toList_toString]
    change Nat.ofDigitChars 10 ('0' :: Nat.toDigits 10 n) 0 = n
    rw [Nat.ofDigitChars_cons]
    exact Nat.ofDigitChars_ten_toDigits
  · rw [toList_toString]
    exact Nat.ofDigitChars_ten_toDigits

/-- There is no hyphen in a number. -/
private theorem hyphen_notMem_twoDigits (n : Nat) : '-' ∉ (twoDigits n).toList := by
  have hdigits : '-' ∉ Nat.toDigits 10 n := fun h =>
    absurd (Nat.isDigit_of_mem_toDigits (by decide) (by decide) h) (by decide)
  unfold twoDigits
  split
  · rw [String.toList_append, toList_toString, List.mem_append, not_or]
    exact ⟨by decide, hdigits⟩
  · rw [toList_toString]
    exact hdigits

/-! ### Identities -/

/-- The last hyphen tells what stands before it from what stands after it. -/
private theorem append_hyphen_inj {xs ys ds es : List Char} (hd : '-' ∉ ds) (he : '-' ∉ es)
    (h : xs ++ '-' :: ds = ys ++ '-' :: es) : xs = ys ∧ ds = es := by
  have hend {as bs cs : List Char} (hc : '-' ∉ cs) (h : '-' :: cs = as ++ '-' :: bs) :
      as = [] := by
    cases as with
    | nil => rfl
    | cons a as =>
      have hcs : cs = as ++ '-' :: bs := (List.cons.inj h).2
      exact absurd (by rw [hcs]; simp) hc
  -- One front part is the other one and some more, which ends before the last hyphen: it is empty.
  rcases List.append_eq_append_iff.1 h with ⟨as, hys, has⟩ | ⟨as, hxs, has⟩
  · have := hend hd has
    subst this
    exact ⟨by simpa using hys.symm, by simpa using has⟩
  · have := hend he has
    subst this
    exact ⟨by simpa using hxs, by simpa using has.symm⟩

/-- An id is the criterion, a hyphen and the number. -/
private theorem toList_makeId (c : String) (n : Nat) :
    (makeId c n).toList = c.toList ++ '-' :: (twoDigits n).toList := by
  unfold makeId
  rw [String.toList_append, String.toList_append, List.append_assoc]
  rfl

/-- An identity belongs to one criterion and one number. -/
theorem makeId_inj {c c' : String} {n n' : Nat} : makeId c n = makeId c' n' ↔ c = c' ∧ n = n' := by
  constructor
  · intro h
    have hlist := congrArg String.toList h
    rw [toList_makeId, toList_makeId] at hlist
    obtain ⟨hc, hn⟩ := append_hyphen_inj (hyphen_notMem_twoDigits n)
      (hyphen_notMem_twoDigits n') hlist
    refine ⟨String.toList_inj.1 hc, ?_⟩
    -- A number is what its digits are read as, zeros in front included.
    rw [← ofDigitChars_twoDigits n, hn, ofDigitChars_twoDigits]
  · rintro ⟨rfl, rfl⟩
    rfl

/-- No identity is the key of the index, which has no hyphen. -/
theorem makeId_ne_indexKey (c : String) (n : Nat) : makeId c n ≠ Manifest.indexKey := by
  intro h
  -- An identity has a hyphen, and the key has none.
  have hmem : '-' ∈ (makeId c n).toList := by
    rw [toList_makeId]
    simp
  rw [h] at hmem
  exact absurd hmem (by decide)

/-! ### Items -/

/-- The identities of a criterion's items are numbered from one. -/
theorem ids_ofDrafts (c : String) (d : Dimension) (drafts : List Draft) :
    (ofDrafts c d drafts).map (·.id) = (List.range' 1 drafts.length).map (makeId c) := by
  unfold ofDrafts
  rw [List.zipIdx_eq_zip_range', List.map_map]
  apply List.ext_getElem
  · simp
  · intro i _ _
    simp [ofDraft, Nat.add_comm]

theorem exists_makeId_of_mem {c : String} {d : Dimension} {drafts : List Draft} {e : Evidence}
    (h : e ∈ ofDrafts c d drafts) : ∃ n, e.id = makeId c n := by
  have hid : e.id ∈ (ofDrafts c d drafts).map (·.id) := List.mem_map_of_mem h
  rw [ids_ofDrafts, List.mem_map] at hid
  obtain ⟨n, -, hn⟩ := hid
  exact ⟨n, hn.symm⟩

theorem nodup_ids_ofDrafts (c : String) (d : Dimension) (drafts : List Draft) :
    ((ofDrafts c d drafts).map (·.id)).Nodup := by
  rw [ids_ofDrafts]
  exact List.Nodup.map (fun _ _ h => (makeId_inj.1 h).2) List.nodup_range'

end Scorecard.Evidence
