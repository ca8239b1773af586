import Scorecard.Proofs.Json.Scan
import Scorecard.Store.Record

/-!
# Reading what has been written

A document that is written can be read if and only if it is not nested too deeply, and what is read
is the same document up to its numbers. The tokens of a document lead the reader from a state that
waits for a value to the state that has read its form, whatever is open around it.

* `Json.run_tokens`: what the reader makes of the tokens of a document.
* `Json.parse?_pretty`: documents can be read again.
* `Decode.ofBytes_pretty`: so are files.
-/

namespace Scorecard.Json

open Reader

/-! ### Forms -/

mutual

/-- The form of a document. -/
def form : Json → Form
  | arr items => .arr (formOfItems items)
  | obj members => .obj (formOfMembers members)
  | v => .scalar (some v)

/-- The forms of items. -/
def formOfItems : List Json → List Form
  | [] => []
  | v :: rest => form v :: formOfItems rest

/-- The forms of members. -/
def formOfMembers : List (String × Json) → List (Option String × Form)
  | [] => []
  | (name, v) :: rest => (some name, form v) :: formOfMembers rest

end

/-- Where all members are looked at as a whole nothing is left out. -/
theorem Form.restrictMembers_eq_self {scope : String → Option Scope}
    {members : List (Option String × Form)} (h : ∀ m ∈ members, m.1.bind scope = some .whole) :
    restrictMembers scope members = members := by
  induction members with
  | nil => rw [restrictMembers]
  | cons m members ih =>
    obtain ⟨hm, hmembers⟩ := List.forall_mem_cons.1 h
    rw [restrictMembers, ih hmembers, hm]
    simp only
    rw [restrict_whole]

/-! ### Taking tokens -/

/-- Tokens are taken one after another. -/
private theorem run_cons (state : State) (t : Token) (ts : List Token) :
    run state (t :: ts) = (step state t).bind fun next => run next ts := rfl

/-- The first token of a document does not close an array. -/
private theorem run_firstItem (v : Json) (stack : List Frame) (ts : List Token) :
    run (.firstItem stack) (v.tokens ++ ts)
      = run (.value (.array [] :: stack)) (v.tokens ++ ts) := by
  cases v with
  | _ => rfl

mutual

/-- The tokens of a document lead to its form. -/
theorem run_tokens (v : Json) (stack : List Frame) (ts : List Token) :
    run (.value stack) (v.tokens ++ ts) = run (.done v.form stack) ts := by
  match v with
  | null => rfl
  | bool b => rfl
  | num n => rfl
  | str s => rfl
  | arr [] => rfl
  | obj [] => rfl
  | arr (v :: items) =>
    have hitems := run_tokensOfItems (v :: items) (List.cons_ne_nil _ _) [] stack ts
    have hfirst := run_firstItem v stack
    rw [tokens, form, List.cons_append, run_cons, List.append_assoc, List.singleton_append]
    change run (.firstItem stack) (tokensOfItems (v :: items) ++ _) = _
    -- The first item comes behind the bracket, the others behind commas.
    refine Eq.trans ?_ hitems
    cases items with
    | nil => exact hfirst _
    | cons w items =>
      rw [tokensOfItems, List.append_assoc]
      · exact hfirst _
      · exact nofun
  | obj ((name, v) :: members) =>
    have hmembers := run_tokensOfMembers ((name, v) :: members) (List.cons_ne_nil _ _) [] stack ts
    rw [tokens, form, List.cons_append, run_cons, List.append_assoc, List.singleton_append]
    change run (.firstName stack) (tokensOfMembers ((name, v) :: members) ++ _) = _
    refine Eq.trans ?_ hmembers
    -- In front of the first member stands what stands in front of every other one: its name.
    cases members with
    | nil => rfl
    | cons m members => rfl

/-- The tokens of items and the end of their array lead to the form of the array. -/
theorem run_tokensOfItems (items : List Json) (hne : items ≠ []) (read : List Form)
    (stack : List Frame) (ts : List Token) :
    run (.value (.array read :: stack)) (tokensOfItems items ++ .closeArray :: ts)
      = run (.done (.arr (read.reverse ++ formOfItems items)) stack) ts := by
  match items, hne with
  | [v], _ =>
    rw [tokensOfItems, run_tokens, run_cons, formOfItems, formOfItems, ← List.reverse_cons]
    rfl
  | v :: w :: items, _ =>
    rw [tokensOfItems, List.append_assoc, List.cons_append, run_tokens, run_cons]
    · change run (.value (.array (v.form :: read) :: stack)) _ = _
      -- What has been read is kept in reverse, with the latest item in front.
      rw [run_tokensOfItems (w :: items) (List.cons_ne_nil _ _), List.reverse_cons,
        List.append_assoc, List.singleton_append]
      rfl
    · exact nofun

/-- The tokens of members and the end of their object lead to the form of the object. -/
theorem run_tokensOfMembers (members : List (String × Json)) (hne : members ≠ [])
    (read : List (Option String × Form)) (stack : List Frame) (ts : List Token) :
    run (.name read stack) (tokensOfMembers members ++ .closeObject :: ts)
      = run (.done (.obj (read.reverse ++ formOfMembers members)) stack) ts := by
  match members, hne with
  | [(name, v)], _ =>
    rw [tokensOfMembers, List.cons_append, List.cons_append, run_cons]
    change run (.value (.object read (some name) :: stack)) (v.tokens ++ _) = _
    rw [run_tokens, run_cons, formOfMembers, formOfMembers, ← List.reverse_cons]
    rfl
  | (name, v) :: (name', w) :: members, _ =>
    rw [tokensOfMembers, List.cons_append, List.cons_append, List.append_assoc, List.cons_append,
      run_cons]
    · change run (.value (.object read (some name) :: stack)) (v.tokens ++ _) = _
      rw [run_tokens, run_cons]
      change run (.name ((some name, v.form) :: read) stack) _ = _
      rw [run_tokensOfMembers ((name', w) :: members) (List.cons_ne_nil _ _), List.reverse_cons,
        List.append_assoc, List.singleton_append]
      rfl
    · exact nofun

end

/-! ### Documents -/

mutual

/-- How deeply arrays and objects are nested. -/
def depth : Json → Nat
  | arr items => depthOfItems items + 1
  | obj members => depthOfMembers members + 1
  | _ => 0

/-- How deeply arrays and objects are nested in items. -/
def depthOfItems : List Json → Nat
  | [] => 0
  | v :: rest => max (depth v) (depthOfItems rest)

/-- How deeply arrays and objects are nested in members. -/
def depthOfMembers : List (String × Json) → Nat
  | [] => 0
  | (_, v) :: rest => max (depth v) (depthOfMembers rest)

end

mutual

/-- The document of the form of a document, if there is room for its depth. -/
theorem toJson?_form (v : Json) (room : Nat) (h : v.depth ≤ room) :
    v.form.toJson? room = some v := by
  match v, room, h with
  | null, _, _ => rfl
  | bool b, _, _ => rfl
  | num n, _, _ => rfl
  | str s, _, _ => rfl
  | arr items, room + 1, h =>
    -- An array takes one from the room, and its items share what is left.
    rw [form, Form.toJson?, itemsToJson?_form items room (Nat.le_of_succ_le_succ h)]
    rfl
  | obj members, room + 1, h =>
    rw [form, Form.toJson?, membersToJson?_form members room (Nat.le_of_succ_le_succ h)]
    rfl

/-- The items of the forms of items. -/
theorem itemsToJson?_form (items : List Json) (room : Nat) (h : depthOfItems items ≤ room) :
    Form.itemsToJson? room (formOfItems items) = some items := by
  match items, h with
  | [], _ => rfl
  | v :: rest, h =>
    -- Each item has the room that the deepest one needs.
    obtain ⟨hv, hrest⟩ := Nat.max_le.1 h
    rw [formOfItems, Form.itemsToJson?, toJson?_form v room hv]
    simp only
    rw [itemsToJson?_form rest room hrest]
    rfl

/-- The members of the forms of members. -/
theorem membersToJson?_form (members : List (String × Json)) (room : Nat)
    (h : depthOfMembers members ≤ room) :
    Form.membersToJson? room (formOfMembers members) = some members := by
  match members, h with
  | [], _ => rfl
  | (name, v) :: rest, h =>
    obtain ⟨hv, hrest⟩ := Nat.max_le.1 h
    rw [formOfMembers]
    unfold Form.membersToJson?
    rw [toJson?_form v room hv]
    simp only
    rw [membersToJson?_form rest room hrest]
    rfl

end

mutual

/-- Where there is no room for the depth of a document, its form stands for none. -/
theorem toJson?_form_eq_none (v : Json) (room : Nat) (h : room < v.depth) :
    v.form.toJson? room = none := by
  match v, room, h with
  | null, _, h => exact absurd h (Nat.not_lt_zero _)
  | bool _, _, h => exact absurd h (Nat.not_lt_zero _)
  | num _, _, h => exact absurd h (Nat.not_lt_zero _)
  | str _, _, h => exact absurd h (Nat.not_lt_zero _)
  | arr items, 0, _ => rfl
  | obj members, 0, _ => rfl
  | arr items, room + 1, h =>
    rw [form, Form.toJson?, itemsToJson?_form_eq_none items room (Nat.lt_of_succ_lt_succ h)]
    rfl
  | obj members, room + 1, h =>
    rw [form, Form.toJson?, membersToJson?_form_eq_none members room (Nat.lt_of_succ_lt_succ h)]
    rfl

/-- There is no room for items of which one is too deep. -/
theorem itemsToJson?_form_eq_none (items : List Json) (room : Nat) (h : room < depthOfItems items) :
    Form.itemsToJson? room (formOfItems items) = none := by
  match items, h with
  | v :: rest, h =>
    rw [formOfItems, Form.itemsToJson?]
    -- Either the first item is too deep, or one of those after it.
    by_cases hv : v.depth ≤ room
    · have hrest : room < depthOfItems rest := by
        rw [depthOfItems] at h
        omega
      rw [toJson?_form v room hv]
      simp only
      rw [itemsToJson?_form_eq_none rest room hrest]
      rfl
    · rw [toJson?_form_eq_none v room (Nat.not_le.1 hv)]

/-- There is no room for members of which one is too deep. -/
theorem membersToJson?_form_eq_none (members : List (String × Json)) (room : Nat)
    (h : room < depthOfMembers members) :
    Form.membersToJson? room (formOfMembers members) = none := by
  match members, h with
  | (name, v) :: rest, h =>
    rw [formOfMembers]
    unfold Form.membersToJson?
    by_cases hv : v.depth ≤ room
    · have hrest : room < depthOfMembers rest := by
        rw [depthOfMembers] at h
        omega
      rw [toJson?_form v room hv]
      simp only
      rw [membersToJson?_form_eq_none rest room hrest]
      rfl
    · rw [toJson?_form_eq_none v room (Nat.not_le.1 hv)]

end

mutual

/-- What is read of the text of a document is as deep as the document. -/
theorem depth_reread (v : Json) : v.reread.depth = v.depth := by
  match v with
  | null => rfl
  | bool b => rfl
  | num n =>
    rw [reread, Number.reread]
    split <;> rfl
  | str s => rfl
  | arr items => rw [reread, depth, depth, depthOfItems_reread items]
  | obj members => rw [reread, depth, depth, depthOfMembers_reread members]

/-- Rereading items does not change how deep they are. -/
private theorem depthOfItems_reread (items : List Json) :
    depthOfItems (rereadItems items) = depthOfItems items := by
  match items with
  | [] => rfl
  | v :: rest =>
    rw [rereadItems, depthOfItems, depthOfItems, depth_reread v, depthOfItems_reread rest]

/-- Rereading members does not change how deep they are. -/
private theorem depthOfMembers_reread (members : List (String × Json)) :
    depthOfMembers (rereadMembers members) = depthOfMembers members := by
  match members with
  | [] => rfl
  | (name, v) :: rest =>
    rw [rereadMembers, depthOfMembers, depthOfMembers, depth_reread v, depthOfMembers_reread rest]

end

/-- The text of a document has the form of what is read of it, however deep it is. -/
theorem Form.parse?_pretty (v : Json) : Form.parse? v.pretty = some v.reread.form := by
  -- The text yields the tokens of what is read of it, and nothing comes after them.
  have hscan : Token.scan v.pretty.toList = some v.reread.tokens := by
    have hyields := yields_prettyChars 0 v ends_nil
    unfold Yields at hyields
    rw [List.append_nil, Token.scan, Option.map_some, List.append_nil] at hyields
    rw [pretty, String.toList_ofList, hyields]
  have hrun : run (.value []) v.reread.tokens = some (.done v.reread.form []) := by
    have htokens := run_tokens v.reread [] []
    rw [List.append_nil] at htokens
    exact htokens
  unfold Form.parse?
  rw [hscan]
  change (run (.value []) v.reread.tokens).bind _ = _
  rw [hrun]
  rfl

/-- A document that is not nested too deeply can be read again. -/
theorem parse?_pretty {v : Json} (h : v.depth ≤ maxDepth) : parse? v.pretty = some v.reread := by
  unfold parse?
  rw [Form.parse?_pretty]
  exact toJson?_form v.reread maxDepth (by rwa [depth_reread])

/-- There is always something in the text of an object. -/
theorem isEmpty_pretty_obj (members : List (String × Json)) :
    (obj members).pretty.toUTF8.isEmpty = false := by
  have hne : (obj members).pretty ≠ "" := by
    intro hempty
    have hchars := congrArg String.toList hempty
    rw [pretty, String.toList_ofList] at hchars
    -- With members or without, the text starts with a bracket.
    cases members with
    | nil => exact nomatch hchars
    | cons m members => exact nomatch hchars
  have hsize : (obj members).pretty.toUTF8.size ≠ 0 :=
    fun hzero => hne (String.utf8ByteSize_eq_zero_iff.1 hzero)
  exact Bool.eq_false_iff.2 fun hempty => hsize (beq_iff_eq.1 hempty)

end Scorecard.Json

namespace Scorecard.Decode

/-- Text is read back from its bytes. -/
theorem fromUTF8?_toUTF8 (s : String) : String.fromUTF8? s.toUTF8 = some s := by
  unfold String.fromUTF8?
  exact dif_pos s.isValidUTF8

/-- A document that is written to a file is read back from the file. -/
theorem ofBytes_pretty {α : Type} (decode : Decoder α) {v : Json} (h : v.depth ≤ Json.maxDepth) :
    ofBytes decode v.pretty.toUTF8 = (decode .text v.reread).mapError (.misfit .text) := by
  unfold ofBytes
  rw [fromUTF8?_toUTF8]
  exact ofText_of_parse? decode (Json.parse?_pretty h)

/-- A document that is nested too deeply is not read back, if all of it is looked at. -/
theorem ofBytes_pretty_of_deep {α : Type} (decode : Decoder α) {v : Json}
    (hdeep : Json.maxDepth < v.depth)
    (hscope : v.reread.form.restrict decode.scope = v.reread.form) :
    ofBytes decode v.pretty.toUTF8 = .error .noDocument := by
  have hnone : Json.ofForm? v.reread.form = none :=
    Json.toJson?_form_eq_none v.reread _ (by rwa [Json.depth_reread])
  have hrestricted : ofForm? decode v.reread.form = none := by
    unfold ofForm?
    rw [hscope, hnone]
    rfl
  unfold ofBytes
  rw [fromUTF8?_toUTF8]
  simp only
  unfold ofText
  rw [Json.Form.parse?_pretty]
  simp only
  rw [hnone, hrestricted]

end Scorecard.Decode
