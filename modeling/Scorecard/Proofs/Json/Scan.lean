import Scorecard.Json.Token
import Scorecard.Proofs.Json.Real

/-!
# Scanning what has been written

The scanner cuts the text that the printer writes into the tokens of the document, whatever follows
the text, as long as it does not go on with a number. Strings are read back whatever characters
they hold, and integers as they are. A binary64 number may be read as another one, and one that is
not finite as `null`; all else of a document is as it was.

* `Json.next?_writeString`: strings are read back.
* `Json.reread`: what is read of the text of a document; `Json.reread_eq_self`: it is the document
  where all numbers are read back.
* `Json.tokens`: the tokens of a document.
* `Json.yields_prettyChars`: the tokens of the text of a document.
-/

namespace Scorecard.Json

open Text

/-! ### Strings -/

namespace Quoted

/-- A character that needs no escape is read as it stands. -/
private theorem scan_plain (read : List Piece) {c : Char} (hquote : c ≠ '"') (hback : c ≠ '\\')
    (hcontrol : ¬ c.toNat < 0x20) (rest : List Char) :
    scan read (c :: rest) = scan (.char c :: read) rest := by
  rw [scan]
  · rw [if_neg hcontrol]
  · exact hquote
  · exact fun _ _ _ _ _ h => absurd h hback
  · exact fun _ _ h => absurd h hback

/-- An escape by a letter is read as the character it stands for. -/
private theorem scan_letter (read : List Piece) {c c' : Char} (h : escapeLetter? c = some c')
    (rest : List Char) : scan read ('\\' :: c :: rest) = scan (.char c' :: read) rest := by
  rw [scan]
  · rw [h]
  · -- The letter of an escape by digits stands for no character itself.
    intro _ _ _ _ _ hu _
    rw [hu] at h
    exact nomatch h

/-- The digits of a control character are read back. -/
private theorem controlDigits_spec : ∀ n : Fin 0x20,
    (['0', '0'] ++ controlDigits (Char.ofNat n)).all Digit.isHex = true ∧
      Digit.ofDigits 16 (['0', '0'] ++ controlDigits (Char.ofNat n)) = n := by
  decide

/-- An escape by digits is read as the control character it stands for. -/
private theorem scan_control (read : List Piece) {c : Char} (h : c.toNat < 0x20)
    (rest : List Char) :
    scan read (['\\', 'u', '0', '0'] ++ controlDigits c ++ rest)
      = scan (.char c :: read) rest := by
  obtain ⟨hhex, hvalue⟩ := controlDigits_spec ⟨c.toNat, h⟩
  rw [Char.ofNat_toNat] at hhex hvalue
  change scan read ('\\' :: 'u' :: '0' :: '0' :: _ :: _ :: rest) = _
  rw [scan]
  -- A control character is no part of a pair of surrogates.
  have hunit : Piece.ofUnit c.toNat = .char c := by
    unfold Piece.ofUnit
    rw [if_neg (by omega), Char.ofNat_toNat]
  refine (if_pos hhex).trans ?_
  change scan (Piece.ofUnit (Digit.ofDigits 16 (['0', '0'] ++ controlDigits c)) :: read) rest = _
  rw [hvalue, hunit]

/-- A character is read back however it is written. -/
private theorem scan_escapeChar (read : List Piece) (c : Char) (rest : List Char) :
    scan read (escapeChar c ++ rest) = scan (.char c :: read) rest := by
  unfold escapeChar
  -- The marks and the control characters that have a letter of their own come first.
  by_cases hquote : c = '"'
  · rw [if_pos hquote, hquote]
    exact scan_letter read rfl rest
  rw [if_neg hquote]
  by_cases hback : c = '\\'
  · rw [if_pos hback, hback]
    exact scan_letter read rfl rest
  rw [if_neg hback]
  by_cases hb : c = '\x08'
  · rw [if_pos hb, hb]
    exact scan_letter read rfl rest
  rw [if_neg hb]
  by_cases hf : c = '\x0c'
  · rw [if_pos hf, hf]
    exact scan_letter read rfl rest
  rw [if_neg hf]
  by_cases hn : c = '\n'
  · rw [if_pos hn, hn]
    exact scan_letter read rfl rest
  rw [if_neg hn]
  by_cases hr : c = '\r'
  · rw [if_pos hr, hr]
    exact scan_letter read rfl rest
  rw [if_neg hr]
  by_cases ht : c = '\t'
  · rw [if_pos ht, ht]
    exact scan_letter read rfl rest
  rw [if_neg ht]
  by_cases hcontrol : c.toNat < 0x20
  · rw [if_pos hcontrol]
    exact scan_control read hcontrol rest
  · rw [if_neg hcontrol]
    exact scan_plain read hquote hback hcontrol rest

/-- Characters are read back from their escapes, up to the closing quote. -/
private theorem scan_flatMap (read : List Piece) (cs rest : List Char) :
    scan read (cs.flatMap escapeChar ++ '"' :: rest)
      = some (read.reverse ++ cs.map .char, rest) := by
  induction cs generalizing read with
  | nil =>
    rw [List.map_nil, List.append_nil]
    exact scan.eq_1 read rest
  | cons c cs ih =>
    -- What has been read is kept in reverse, with the latest character in front.
    rw [List.flatMap_cons, List.append_assoc, scan_escapeChar, ih, List.reverse_cons,
      List.append_assoc]
    rfl

/-- Pieces that are characters are joined to a text. -/
private theorem join?_chars (read cs : List Char) :
    join? read (cs.map .char) = some (String.ofList (read.reverse ++ cs)) := by
  induction cs generalizing read with
  | nil => rw [List.map_nil, join?, List.append_nil]
  | cons c cs ih =>
    rw [List.map_cons, join?, ih, List.reverse_cons, List.append_assoc]
    rfl

end Quoted

/-- A string is read back, whatever characters it holds. -/
theorem next?_writeString (s : String) (rest : List Char) :
    Token.next? (writeString s ++ rest) = some (.str (some s), rest) := by
  have htext : writeString s ++ rest
      = '"' :: (s.toList.flatMap escapeChar ++ '"' :: rest) := by
    rw [writeString, List.cons_append, List.append_assoc, List.singleton_append]
  rw [htext, Token.next?, Quoted.scan_flatMap, List.reverse_nil, List.nil_append]
  change some (Token.str (Quoted.join? [] _), rest) = _
  rw [Quoted.join?_chars, List.reverse_nil, List.nil_append, String.ofList_toList]

/-! ### Tokens -/

/-- A numeral starts with a sign or a digit. -/
private theorem Numeral.exists_head {cs rest : List Char} {n : Option Number}
    (h : Numeral.scan cs = some (n, rest)) :
    ∃ c more, cs = c :: more ∧ (c = '-' ∨ c.isDigit = true) := by
  cases cs with
  | nil => cases h
  | cons c more =>
    refine ⟨c, more, rfl, ?_⟩
    by_cases hminus : c = '-'
    · exact .inl hminus
    cases hdigit : c.isDigit with
    | true => exact .inr rfl
    | false =>
      -- Without a sign and without a digit there are no digits in front of the point.
      have hnot : ¬ c.isDigit = true := by
        rw [hdigit]
        exact Bool.false_ne_true
      have hsplit : Numeral.minus (c :: more) = (false, c :: more) := by
        rw [Numeral.minus]
        intro _ heq
        exact hminus (List.cons.inj heq).1
      have hrun : Numeral.digitRun (c :: more) = ([], c :: more) := by
        unfold Numeral.digitRun
        rw [List.takeWhile_cons_of_neg hnot, List.dropWhile_cons_of_neg hnot]
      unfold Numeral.scan at h
      rw [hsplit] at h
      simp only at h
      rw [hrun] at h
      cases h

/-- What can be read as a number is read as one. -/
private theorem next?_of_numeral {cs rest : List Char} {n : Option Number}
    (h : Numeral.scan cs = some (n, rest)) :
    Token.next? cs = some (.scalar (n.map .num), rest) ∧
      ∃ c more, cs = c :: more ∧ Token.isSpace c = false := by
  obtain ⟨c, more, rfl, hc⟩ := Numeral.exists_head h
  have hnot (c' : Char) (hdigit : c'.isDigit = false) (hminus : c' ≠ '-') : c ≠ c' := by
    rintro rfl
    rcases hc with rfl | hc
    · exact hminus rfl
    · rw [hdigit] at hc
      exact nomatch hc
  refine ⟨?_, c, more, rfl, ?_⟩
  · -- No other token starts with a digit or with a minus sign.
    rw [Token.next?]
    · rw [h]
      rfl
    · exact fun _ heq => hnot '[' rfl (by decide) (List.cons.inj heq).1
    · exact fun _ heq => hnot ']' rfl (by decide) (List.cons.inj heq).1
    · exact fun _ heq => hnot '\x7b' rfl (by decide) (List.cons.inj heq).1
    · exact fun _ heq => hnot '\x7d' rfl (by decide) (List.cons.inj heq).1
    · exact fun _ heq => hnot ',' rfl (by decide) (List.cons.inj heq).1
    · exact fun _ heq => hnot ':' rfl (by decide) (List.cons.inj heq).1
    · exact fun _ heq => hnot '"' rfl (by decide) (List.cons.inj heq).1
    · exact fun _ heq => hnot 'n' rfl (by decide) (List.cons.inj heq).1
    · exact fun _ heq => hnot 't' rfl (by decide) (List.cons.inj heq).1
    · exact fun _ heq => hnot 'f' rfl (by decide) (List.cons.inj heq).1
  · unfold Token.isSpace
    rw [decide_eq_false (hnot ' ' rfl (by decide)), decide_eq_false (hnot '\n' rfl (by decide)),
      decide_eq_false (hnot '\t' rfl (by decide)), decide_eq_false (hnot '\r' rfl (by decide))]
    rfl

/-- What is read of a number that is written. One that is not finite is written as `null`. -/
def Number.reread (n : Number) : Json :=
  match Numeral.scan n.write with
  | some (some n, _) => .num n
  | _ => .null

theorem Number.reread_of_readAs {n n' : Number} (h : n.ReadAs n') : n.reread = .num n' := by
  have hscan := h [] ends_nil
  rw [List.append_nil] at hscan
  unfold reread
  rw [hscan]

/-- The text of a number is one token, whatever follows it. -/
private theorem Number.next?_write (n : Number) {rest : List Char} (hrest : Ends rest) :
    Token.next? (n.write ++ rest) = some (.scalar (some n.reread), rest) ∧
      ∃ c more, n.write ++ rest = c :: more ∧ Token.isSpace c = false := by
  have hread {n' : Number} (h : n.ReadAs n') :
      Token.next? (n.write ++ rest) = some (.scalar (some n.reread), rest) ∧
        ∃ c more, n.write ++ rest = c :: more ∧ Token.isSpace c = false := by
    rw [reread_of_readAs h]
    exact next?_of_numeral (h rest hrest)
  cases n with
  | int n fits => exact hread (legible_int n fits)
  | real x =>
    by_cases hfinite : x.isFinite = true
    · obtain ⟨n', h⟩ := exists_readAs_real hfinite
      exact hread h
    · -- What is not finite is written as a word of its own.
      have hwrite : (Number.real x).write = ['n', 'u', 'l', 'l'] := if_neg hfinite
      unfold reread
      rw [hwrite]
      exact ⟨rfl, _, _, rfl, rfl⟩

/-- The text has the tokens in front of those of the rest. -/
def Yields (cs : List Char) (ts : List Token) (rest : List Char) : Prop :=
  Token.scan cs = (Token.scan rest).map (ts ++ ·)

namespace Yields

variable {cs mid rest : List Char} {ts us : List Token}

theorem refl (cs : List Char) : Yields cs [] cs := by
  unfold Yields
  cases Token.scan cs with
  | none => rfl
  | some ts => rfl

theorem trans (h : Yields cs ts mid) (h' : Yields mid us rest) : Yields cs (ts ++ us) rest := by
  unfold Yields at h h' ⊢
  -- The tokens of the first part come in front of all others.
  rw [h, h', Option.map_map]
  congr 1
  funext more
  exact (List.append_assoc ts us more).symm

/-- Blanks are skipped. -/
theorem space {c : Char} (h : Token.isSpace c = true) (rest : List Char) :
    Yields (c :: rest) [] rest := by
  unfold Yields
  rw [Token.scan, if_pos h]
  exact refl rest

/-- A token, and then those of what it leaves. -/
theorem token {c : Char} {more : List Char} {t : Token} (hspace : Token.isSpace c = false)
    (h : Token.next? (c :: more) = some (t, rest)) : Yields (c :: more) [t] rest := by
  unfold Yields
  rw [Token.scan, if_neg (by rw [hspace]; exact Bool.false_ne_true)]
  split
  · next hnone =>
    rw [h] at hnone
    cases hnone
  · next hsome =>
    rw [h] at hsome
    cases hsome
    rfl

end Yields

/-- A line break is no token. -/
private theorem yields_lineBreak (level : Nat) (rest : List Char) :
    Yields (lineBreak level ++ rest) [] rest := by
  have hblanks (n : Nat) : Yields (List.replicate n ' ' ++ rest) [] rest := by
    induction n with
    | zero => exact .refl rest
    | succ n ih =>
      rw [List.replicate_succ, List.cons_append]
      exact (Yields.space rfl _).trans ih
  exact (Yields.space rfl _).trans (hblanks _)

/-- A text that is written is one token. -/
private theorem yields_writeString (s : String) (rest : List Char) :
    Yields (writeString s ++ rest) [.str (some s)] rest :=
  .token rfl (next?_writeString s rest)

/-! ### Documents -/

mutual

/-- The tokens of a document. -/
def tokens : Json → List Token
  | null => [.scalar (some null)]
  | bool b => [.scalar (some (.bool b))]
  | num n => [.scalar (some (.num n))]
  | str s => [.str (some s)]
  | arr items => .openArray :: (tokensOfItems items ++ [.closeArray])
  | obj members => .openObject :: (tokensOfMembers members ++ [.closeObject])

/-- The tokens of items. -/
def tokensOfItems : List Json → List Token
  | [] => []
  | [v] => tokens v
  | v :: rest => tokens v ++ .comma :: tokensOfItems rest

/-- The tokens of members. -/
def tokensOfMembers : List (String × Json) → List Token
  | [] => []
  | [(name, v)] => .str (some name) :: .colon :: tokens v
  | (name, v) :: rest =>
    .str (some name) :: .colon :: (tokens v ++ .comma :: tokensOfMembers rest)

end

mutual

/-- All numbers of the document are read back. -/
def Legible : Json → Prop
  | num n => n.Legible
  | arr items => LegibleItems items
  | obj members => LegibleMembers members
  | _ => True

/-- All numbers of the items are read back. -/
def LegibleItems : List Json → Prop
  | [] => True
  | v :: rest => Legible v ∧ LegibleItems rest

/-- All numbers of the members are read back. -/
def LegibleMembers : List (String × Json) → Prop
  | [] => True
  | (_, v) :: rest => Legible v ∧ LegibleMembers rest

end

mutual

/-- What is read of the text of a document: the document, with the numbers as they are read. -/
def reread : Json → Json
  | num n => n.reread
  | arr items => .arr (rereadItems items)
  | obj members => .obj (rereadMembers members)
  | v => v

/-- What is read of the text of items. -/
def rereadItems : List Json → List Json
  | [] => []
  | v :: rest => reread v :: rereadItems rest

/-- What is read of the text of members. -/
def rereadMembers : List (String × Json) → List (String × Json)
  | [] => []
  | (name, v) :: rest => (name, reread v) :: rereadMembers rest

end

mutual

/-- A document whose numbers are read back is read back. -/
theorem reread_eq_self (v : Json) (h : v.Legible) : v.reread = v := by
  match v, h with
  | null, _ => rfl
  | bool b, _ => rfl
  | num n, h => exact Number.reread_of_readAs h
  | str s, _ => rfl
  | arr items, h => rw [reread, rereadItems_eq_self items h]
  | obj members, h => rw [reread, rereadMembers_eq_self members h]

/-- Items whose numbers are read back are read back. -/
theorem rereadItems_eq_self (items : List Json) (h : LegibleItems items) :
    rereadItems items = items := by
  match items, h with
  | [], _ => rfl
  | v :: rest, h => rw [rereadItems, reread_eq_self v h.1, rereadItems_eq_self rest h.2]

/-- Members whose numbers are read back are read back. -/
theorem rereadMembers_eq_self (members : List (String × Json)) (h : LegibleMembers members) :
    rereadMembers members = members := by
  match members, h with
  | [], _ => rfl
  | (name, v) :: rest, h =>
    rw [rereadMembers, reread_eq_self v h.1, rereadMembers_eq_self rest h.2]

end

/-- What is read of a number is one token. -/
private theorem tokens_numberReread (n : Number) : n.reread.tokens = [.scalar (some n.reread)] := by
  unfold Number.reread
  split <;> rfl

/-- A numeral ends where a line does. -/
private theorem ends_lineBreak (level : Nat) (rest : List Char) : Ends (lineBreak level ++ rest) :=
  ends_cons (by decide)

mutual

/-- The text of a document has the tokens of what is read of it. -/
theorem yields_prettyChars (level : Nat) (v : Json) {rest : List Char} (hrest : Ends rest) :
    Yields (prettyChars level v ++ rest) v.reread.tokens rest := by
  -- What follows is arbitrary, as the text of a part is followed by that of the whole.
  match v with
  | null => exact .token rfl rfl
  | bool true => exact .token rfl rfl
  | bool false => exact .token rfl rfl
  | num n =>
    obtain ⟨hnext, c, more, htext, hspace⟩ := n.next?_write hrest
    rw [htext] at hnext
    rw [prettyChars, htext, reread, tokens_numberReread]
    exact .token hspace hnext
  | str s => exact yields_writeString s rest
  | arr [] => exact (Yields.token rfl rfl).trans (.token rfl rfl)
  | obj [] => exact (Yields.token rfl rfl).trans (.token rfl rfl)
  | arr (v :: items) =>
    -- The items end where the line of the closing bracket begins.
    have hitems := yields_prettyItems (level + 1) (v :: items)
      (ends_lineBreak level (']' :: rest))
    have hclose : Yields (']' :: rest) [.closeArray] rest := .token rfl rfl
    have hall := hitems.trans ((yields_lineBreak level _).trans hclose)
    rw [prettyChars, reread, tokens, List.cons_append, List.append_assoc, List.append_assoc]
    exact (Yields.token rfl rfl).trans hall
  | obj (m :: members) =>
    have hmembers := yields_prettyMembers (level + 1) (m :: members)
      (ends_lineBreak level ('\x7d' :: rest))
    have hclose : Yields ('\x7d' :: rest) [.closeObject] rest := .token rfl rfl
    have hall := hmembers.trans ((yields_lineBreak level _).trans hclose)
    rw [prettyChars, reread, tokens, List.cons_append, List.append_assoc, List.append_assoc]
    exact (Yields.token rfl rfl).trans hall

/-- The text of items has the tokens of what is read of them. -/
theorem yields_prettyItems (level : Nat) (items : List Json) {rest : List Char}
    (hrest : Ends rest) :
    Yields (prettyItems level items ++ rest) (tokensOfItems (rereadItems items)) rest := by
  match items with
  | [] => exact .refl rest
  | [v] =>
    rw [prettyItems, rereadItems, rereadItems, tokensOfItems, List.append_assoc]
    exact (yields_lineBreak level _).trans (yields_prettyChars level v hrest)
  | v :: w :: items =>
    -- The first item ends at the comma.
    have hv := yields_prettyChars level v
      (ends_cons (by decide) : Ends (',' :: (prettyItems level (w :: items) ++ rest)))
    have hitems := yields_prettyItems level (w :: items) hrest
    have hcomma : Yields (',' :: (prettyItems level (w :: items) ++ rest)) [.comma] _ :=
      .token rfl rfl
    rw [rereadItems] at hitems
    rw [prettyItems, rereadItems, rereadItems, tokensOfItems, List.append_assoc, List.append_assoc,
      List.cons_append]
    · exact (yields_lineBreak level _).trans (hv.trans (hcomma.trans hitems))
    · exact nofun
    · exact nofun

/-- The text of members has the tokens of what is read of them. -/
theorem yields_prettyMembers (level : Nat) (members : List (String × Json)) {rest : List Char}
    (hrest : Ends rest) :
    Yields (prettyMembers level members ++ rest) (tokensOfMembers (rereadMembers members))
      rest := by
  match members with
  | [] => exact .refl rest
  | [(name, v)] =>
    have hv := yields_prettyChars level v hrest
    -- Between a name and its value stand a colon and a blank.
    have hcolon : Yields (':' :: ' ' :: (prettyChars level v ++ rest)) [.colon] _ :=
      (Yields.token rfl rfl).trans (.space rfl _)
    rw [prettyMembers, rereadMembers, rereadMembers, tokensOfMembers, List.append_assoc,
      List.append_assoc]
    exact (yields_lineBreak level _).trans
      ((yields_writeString name _).trans (hcolon.trans hv))
  | (name, v) :: (name', w) :: members =>
    have hv := yields_prettyChars level v
      (ends_cons (by decide) : Ends (',' :: (prettyMembers level ((name', w) :: members) ++ rest)))
    have hmembers := yields_prettyMembers level ((name', w) :: members) hrest
    have hcomma : Yields (',' :: (prettyMembers level ((name', w) :: members) ++ rest))
        [.comma] _ := .token rfl rfl
    have hcolon : Yields (':' :: ' ' :: (prettyChars level v
        ++ ',' :: (prettyMembers level ((name', w) :: members) ++ rest))) [.colon] _ :=
      (Yields.token rfl rfl).trans (.space rfl _)
    rw [rereadMembers] at hmembers
    rw [prettyMembers, rereadMembers, rereadMembers, tokensOfMembers, List.append_assoc,
      List.append_assoc, List.cons_append, List.cons_append, List.append_assoc, List.cons_append]
    · exact (yields_lineBreak level _).trans
        ((yields_writeString name _).trans (hcolon.trans (hv.trans (hcomma.trans hmembers))))
    · exact nofun
    · exact nofun

end

end Scorecard.Json
