/-!
# Tables: finite maps in ascending key order

A table keeps its entries in strictly ascending key order, so listing one gives
its keys in order and no key stands twice.

* `Table.get?_insert`: inserting changes the look-up at that key and at no other.
* `Table.mem_entries_iff`: an entry stands in the table exactly when its key is
  looked up to its value.
* `Table.ext_get?`: two tables with the same look-ups are the same table.
-/

namespace Scorecard

/-- A type of keys: a strict linear order that can be decided. -/
class Key (κ : Type) extends LT κ where
  decideLT : (a b : κ) → Decidable (a < b)
  irrefl : ∀ a : κ, ¬ a < a
  trans : ∀ {a b c : κ}, a < b → b < c → a < c
  connected : ∀ {a b : κ}, ¬ a < b → ¬ b < a → a = b

instance Key.instDecidableLT {κ : Type} [Key κ] (a b : κ) : Decidable (a < b) :=
  Key.decideLT a b

/-- Text is ordered by code points, which is also the order of its UTF-8 bytes. -/
instance : Key String where
  decideLT := inferInstance
  irrefl := String.lt_irrefl
  trans := String.lt_trans
  connected := fun h h' => String.le_antisymm h' h

/-- Lists of texts are ordered lexicographically. -/
instance : Key (List String) where
  decideLT := inferInstance
  irrefl := List.lt_irrefl
  trans := List.lt_trans
  connected := fun h h' => List.le_antisymm h' h

/-- Numbers in their usual order. -/
instance : Key Nat where
  decideLT := inferInstance
  irrefl := Nat.lt_irrefl
  trans := Nat.lt_trans
  connected := fun h h' => Nat.le_antisymm (Nat.not_lt.1 h') (Nat.not_lt.1 h)

/-- A finite map whose entries stand in strictly ascending key order. -/
@[ext] structure Table (κ : Type) [Key κ] (α : Type) where
  entries : List (κ × α)
  ascending : entries.Pairwise (fun a b => a.1 < b.1)

namespace Table

variable {κ α β : Type} [Key κ]

/-- The table without entries. -/
def empty : Table κ α := ⟨[], .nil⟩

instance : EmptyCollection (Table κ α) := ⟨empty⟩

instance : Inhabited (Table κ α) := ⟨empty⟩

/-! ### Looking up -/

/-- The value of the first entry with the key `k`. -/
def find? (k : κ) : List (κ × α) → Option α
  | [] => none
  | (k', v) :: rest => if k < k' then find? k rest else if k' < k then find? k rest else some v

/-- The value that the table gives to `k`. -/
def get? (t : Table κ α) (k : κ) : Option α := find? k t.entries

/-- Whether the table has the key `k`. -/
def contains (t : Table κ α) (k : κ) : Bool := (t.get? k).isSome

/-- The keys in ascending order. -/
def keys (t : Table κ α) : List κ := t.entries.map (·.1)

/-- The values in the order of their keys. -/
def values (t : Table κ α) : List α := t.entries.map (·.2)

/-- The number of entries. -/
def size (t : Table κ α) : Nat := t.entries.length

/-- Whether the table has no entry. -/
def isEmpty (t : Table κ α) : Bool := t.entries.isEmpty

/-! ### Changing -/

/-- Puts the entry `(k, v)` at its place, instead of an entry with that key. -/
def place (k : κ) (v : α) : List (κ × α) → List (κ × α)
  | [] => [(k, v)]
  | (k', v') :: rest =>
    if k < k' then (k, v) :: (k', v') :: rest
    else if k' < k then (k', v') :: place k v rest
    else (k, v) :: rest

/-- What is in the list after placing has been there before or is what has been placed. -/
private theorem mem_place {k : κ} {v : α} {e : κ × α} {es : List (κ × α)}
    (h : e ∈ place k v es) : e = (k, v) ∨ e ∈ es := by
  induction es with
  | nil => simpa [place] using h
  | cons e' rest ih =>
    simp only [place] at h
    split at h
    · simpa using h
    · split at h
      · rcases List.mem_cons.1 h with h | h
        · exact .inr (h ▸ List.mem_cons_self)
        · exact (ih h).imp_right (List.mem_cons_of_mem _)
      · exact (List.mem_cons.1 h).imp_right (List.mem_cons_of_mem _)

/-- Placing keeps the keys in ascending order. -/
private theorem pairwise_place (k : κ) (v : α) {es : List (κ × α)}
    (h : es.Pairwise (fun a b => a.1 < b.1)) :
    (place k v es).Pairwise (fun a b => a.1 < b.1) := by
  induction es with
  | nil => simp [place]
  | cons e rest ih =>
    obtain ⟨hhead, hrest⟩ := List.pairwise_cons.1 h
    simp only [place]
    split
    · next hlt =>
      refine List.pairwise_cons.2 ⟨fun b hb => ?_, h⟩
      rcases List.mem_cons.1 hb with rfl | hb
      · exact hlt
      · exact Key.trans hlt (hhead b hb)
    · split
      · next hgt =>
        refine List.pairwise_cons.2 ⟨fun b hb => ?_, ih hrest⟩
        rcases mem_place hb with rfl | hb
        · exact hgt
        · exact hhead b hb
      · next hlt hgt =>
        have hk : k = e.1 := Key.connected hlt hgt
        exact List.pairwise_cons.2 ⟨fun b hb => hk ▸ hhead b hb, hrest⟩

/-- Gives `k` the value `v`, whatever it had before. -/
def insert (t : Table κ α) (k : κ) (v : α) : Table κ α :=
  ⟨place k v t.entries, pairwise_place k v t.ascending⟩

/-- Keeps the keys that satisfy `p`. -/
def filter (t : Table κ α) (p : κ → Bool) : Table κ α :=
  ⟨t.entries.filter (fun e => p e.1), t.ascending.filter _⟩

/-- Drops the key `k`. -/
def erase (t : Table κ α) (k : κ) : Table κ α :=
  t.filter fun k' => decide (k' < k) || decide (k < k')

/-- The table of the entries of `es`; of several with one key the last one counts. -/
def ofList (es : List (κ × α)) : Table κ α :=
  es.foldl (fun t e => t.insert e.1 e.2) empty

/-- The entries of `t`, with those of `s` instead where both have a key. -/
def override (t s : Table κ α) : Table κ α :=
  s.entries.foldl (fun t e => t.insert e.1 e.2) t

/-- Changes every value. -/
def map (f : α → β) (t : Table κ α) : Table κ β :=
  ⟨t.entries.map (fun e => (e.1, f e.2)), by
    simpa [List.pairwise_map] using t.ascending⟩

instance [BEq κ] [BEq α] : BEq (Table κ α) := ⟨fun t s => t.entries == s.entries⟩

/-! ### Look-ups after a change -/

@[simp] theorem get?_empty (k : κ) : (empty : Table κ α).get? k = none := rfl

/-- What has been placed is found under its key. -/
private theorem find?_place_self (k : κ) (v : α) (es : List (κ × α)) :
    find? k (place k v es) = some v := by
  induction es with
  | nil => simp [place, find?, Key.irrefl]
  | cons e rest ih =>
    simp only [place]
    split
    · simp [find?, Key.irrefl]
    · split
      · next h => simp [find?, h, ih]
      · simp [find?, Key.irrefl]

/-- Under other keys the same is found as before. -/
private theorem find?_place_ne {k k' : κ} (hne : k' ≠ k) (v : α) (es : List (κ × α)) :
    find? k' (place k v es) = find? k' es := by
  have hskip : ∀ rest : List (κ × α), find? k' ((k, v) :: rest) = find? k' rest := by
    intro rest
    simp only [find?]
    split
    · rfl
    · split
      · rfl
      · next h h' => exact absurd (Key.connected h h') hne
  induction es with
  | nil => simpa [place] using hskip []
  | cons e rest ih =>
    simp only [place]
    split
    · exact hskip _
    · split
      · simp [find?, ih]
      · next h h' =>
        have hk : k = e.1 := Key.connected h h'
        rw [hskip]
        have := hskip rest
        rw [hk] at this
        simp only [find?] at this ⊢
        by_cases h1 : k' < e.1
        · simp [h1]
        · by_cases h2 : e.1 < k'
          · simp [h1, h2]
          · exact absurd (hk ▸ Key.connected h1 h2) hne

/-- After giving `k` the value `v`, `k` has `v` and every other key what it had. -/
theorem get?_insert [DecidableEq κ] (t : Table κ α) (k k' : κ) (v : α) :
    (t.insert k v).get? k' = if k' = k then some v else t.get? k' := by
  split
  · next h => exact h ▸ find?_place_self k v t.entries
  · next h => exact find?_place_ne h v t.entries

/-! ### Entries and look-ups -/

/-- Nothing is found under a key below all others. -/
private theorem find?_eq_none_of_lt {k : κ} {es : List (κ × α)}
    (h : ∀ e ∈ es, k < e.1) : find? k es = none := by
  induction es with
  | nil => rfl
  | cons e rest ih =>
    have hrest := ih fun e' he' => h e' (List.mem_cons_of_mem _ he')
    simp [find?, h e List.mem_cons_self, hrest]

/-- Where the keys ascend, what is found is what is in the list. -/
private theorem find?_eq_some_iff {k : κ} {v : α} {es : List (κ × α)}
    (h : es.Pairwise (fun a b => a.1 < b.1)) : find? k es = some v ↔ (k, v) ∈ es := by
  induction es with
  | nil => simp [find?]
  | cons e rest ih =>
    obtain ⟨hhead, hrest⟩ := List.pairwise_cons.1 h
    have ih := ih hrest
    by_cases hlt : k < e.1
    · have hnone : find? k rest = none :=
        find?_eq_none_of_lt fun b hb => Key.trans hlt (hhead b hb)
      have hne : (k, v) ≠ e := fun he => Key.irrefl k (by simpa [← he] using hlt)
      have hnot : (k, v) ∉ rest := fun hm => by simp [hnone] at ih; exact ih hm
      simp [find?, hlt, hnone, hne, hnot]
    · by_cases hgt : e.1 < k
      · have hne : (k, v) ≠ e := fun he => Key.irrefl k (by simpa [← he] using hgt)
        simp [find?, hlt, hgt, ih, hne]
      · have hk : k = e.1 := Key.connected hlt hgt
        have hnot : (k, v) ∉ rest := fun hm =>
          Key.irrefl k (by simpa [hk] using hhead _ hm)
        subst hk
        simp only [find?, hlt, ↓reduceIte, Option.some.injEq, List.mem_cons, hnot, or_false]
        exact ⟨fun hv => hv ▸ rfl, fun he => congrArg Prod.snd he.symm⟩

/-- An entry stands in the table exactly when its key is looked up to its value. -/
theorem mem_entries_iff (t : Table κ α) (k : κ) (v : α) :
    (k, v) ∈ t.entries ↔ t.get? k = some v :=
  (find?_eq_some_iff t.ascending).symm

/-- Lists with ascending keys are the same if they have the same entries. -/
private theorem eq_of_mem_iff {es fs : List (κ × α)}
    (hes : es.Pairwise (fun a b => a.1 < b.1)) (hfs : fs.Pairwise (fun a b => a.1 < b.1))
    (h : ∀ e, e ∈ es ↔ e ∈ fs) : es = fs := by
  induction es generalizing fs with
  | nil =>
    cases fs with
    | nil => rfl
    | cons f _ => exact absurd ((h f).2 List.mem_cons_self) List.not_mem_nil
  | cons e es ih =>
    cases fs with
    | nil => exact absurd ((h e).1 List.mem_cons_self) List.not_mem_nil
    | cons f fs =>
      obtain ⟨hehead, hetail⟩ := List.pairwise_cons.1 hes
      obtain ⟨hfhead, hftail⟩ := List.pairwise_cons.1 hfs
      have hef : e = f := by
        rcases List.mem_cons.1 ((h e).1 List.mem_cons_self) with he | he
        · exact he
        rcases List.mem_cons.1 ((h f).2 List.mem_cons_self) with hf | hf
        · exact hf.symm
        exact absurd (Key.trans (hehead f hf) (hfhead e he)) (Key.irrefl _)
      subst hef
      refine congrArg (e :: ·) (ih hetail hftail fun x => ⟨fun hx => ?_, fun hx => ?_⟩)
      · rcases List.mem_cons.1 ((h x).1 (List.mem_cons_of_mem _ hx)) with rfl | hx'
        · exact absurd (hehead x hx) (Key.irrefl _)
        · exact hx'
      · rcases List.mem_cons.1 ((h x).2 (List.mem_cons_of_mem _ hx)) with rfl | hx'
        · exact absurd (hfhead x hx) (Key.irrefl _)
        · exact hx'

/-- Two tables with the same look-ups are the same table. -/
theorem ext_get? {t s : Table κ α} (h : ∀ k, t.get? k = s.get? k) : t = s :=
  Table.ext <| eq_of_mem_iff t.ascending s.ascending fun e => by
    rw [mem_entries_iff t e.1 e.2, mem_entries_iff s e.1 e.2, h]

/-- After keeping the keys that satisfy `p`, those are looked up as before and others not. -/
theorem get?_filter (t : Table κ α) (p : κ → Bool) (k : κ) :
    (t.filter p).get? k = if p k then t.get? k else none := by
  refine Option.ext fun v => ?_
  rw [← mem_entries_iff]
  split
  · next h => simp [filter, h, mem_entries_iff]
  · next h => simp [filter, h]

/-- After dropping `k`, `k` has no value and every other key what it had. -/
theorem get?_erase [DecidableEq κ] (t : Table κ α) (k k' : κ) :
    (t.erase k).get? k' = if k' = k then none else t.get? k' := by
  rw [erase, get?_filter]
  by_cases h : k' = k
  · simp [h, Key.irrefl]
  · have hkeep : k' < k ∨ k < k' := Classical.byContradiction fun hnot =>
      h (Key.connected (fun h' => hnot (.inl h')) fun h' => hnot (.inr h'))
    simpa [h] using fun h1 h2 => absurd hkeep (not_or.2 ⟨h1, h2⟩)

end Table

end Scorecard
