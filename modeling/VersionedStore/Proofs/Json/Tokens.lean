/-
  VersionedStore.Proofs.Json.Tokens

  The text of a JSON value, on one line or over several, has the tokens of the value.

  Every character of a string is written as one piece, from which it is put together
  again (`exists_piece`).  `Lexes cs ts` says that a text has these tokens whatever
  follows it, as long as that does not go on like a number.  Tokens are then joined as
  the printer joins pieces, and blanks between them are passed over.

  All of this holds for every codec of floats; only the token of a float asks that the
  codec is lawful.
-/
import Mathlib.Data.List.Forall2
import VersionedStore.Json.Reader
import VersionedStore.Proofs.Json.Numbers

namespace VersionedStore.Json

open Token
open Numeral (EndsNumber endsNumber_nil endsNumber_cons)

variable {cs ds rest blanks : List Char} {ts us : List Token}

-- ============================================================================
-- Strings
-- ============================================================================

namespace Token

theorem numeral?_hexDigits {n : Nat} (h : n < 0x20) :
    ∃ a b, List.replicate (2 - (Text.hexDigits n).length) '0' ++ Text.hexDigits n = [a, b] ∧
      Text.numeral? 16 ['0', '0', a, b] = some n := by
  have hall : ∀ n < 0x20, ∃ a b,
      List.replicate (2 - (Text.hexDigits n).length) '0' ++ Text.hexDigits n = [a, b] ∧
        Text.numeral? 16 ['0', '0', a, b] = some n := by
    intro n hn
    refine ⟨(List.replicate (2 - (Text.hexDigits n).length) '0' ++ Text.hexDigits n)[0]!,
      (List.replicate (2 - (Text.hexDigits n).length) '0' ++ Text.hexDigits n)[1]!, ?_⟩
    revert n
    decide +kernel
  exact hall n h

theorem pieces_escaped {e c : Char} (h : escaped? e = some c) (cs : List Char) :
    pieces ('\\' :: e :: cs) = (pieces cs).map fun r => (.char c :: r.1, r.2) := by
  have hu : e ≠ 'u' := by
    rintro rfl
    contradiction
  rw [pieces, h]
  · cases pieces cs <;> rfl
  · rintro a b c d rest rfl
    simp_all

theorem pieces_plain {c : Char} (hcontrol : ¬ c.toNat < 0x20) (hquote : c ≠ '"')
    (hslash : c ≠ '\\') (cs : List Char) :
    pieces (c :: cs) = (pieces cs).map fun r => (.char c :: r.1, r.2) := by
  rw [pieces]
  · rw [if_neg hcontrol]
    cases pieces cs <;> rfl
  all_goals simp_all

/-- A character of a string is written as one piece, which stands for the character. -/
theorem exists_piece (c : Char) : ∃ p : Piece,
    (∀ cs, pieces (stringChar c ++ cs) = (pieces cs).map fun r => (p :: r.1, r.2)) ∧
      ∀ ps, assemble (p :: ps) = (assemble ps).map (c :: ·) := by
  unfold stringChar
  split
  · exact ⟨.char '"', pieces_escaped rfl, fun _ => rfl⟩
  · exact ⟨.char '\\', pieces_escaped rfl, fun _ => rfl⟩
  · exact ⟨.char '\x08', pieces_escaped rfl, fun _ => rfl⟩
  · exact ⟨.char '\x0c', pieces_escaped rfl, fun _ => rfl⟩
  · exact ⟨.char '\n', pieces_escaped rfl, fun _ => rfl⟩
  · exact ⟨.char '\r', pieces_escaped rfl, fun _ => rfl⟩
  · exact ⟨.char '\t', pieces_escaped rfl, fun _ => rfl⟩
  next hquote hslash _ _ _ _ _ =>
    split
    next hcontrol =>
      obtain ⟨a, b, hdigits, hvalue⟩ := numeral?_hexDigits hcontrol
      refine ⟨.unit c.toNat, fun cs => ?_, fun ps => ?_⟩
      · rw [List.append_assoc ['\\', 'u', '0', '0'], hdigits]
        simp only [List.cons_append, List.nil_append, pieces, hvalue]
        cases pieces cs <;> rfl
      · rw [assemble.eq_def]
        dsimp only
        rw [if_pos (.inl (by omega)), Char.ofNat_toNat]
    next hcontrol =>
      exact ⟨.char c, pieces_plain hcontrol hquote hslash, fun _ => rfl⟩

/-- A string between quotes is read up to its closing quote. -/
theorem pieces_stringChars (cs rest : List Char) :
    ∃ ps, pieces (cs.flatMap stringChar ++ '"' :: rest) = some (ps, rest) ∧
      assemble ps = some cs := by
  induction cs with
  | nil => exact ⟨[], by rw [List.flatMap_nil, List.nil_append, pieces], rfl⟩
  | cons c cs ih =>
    obtain ⟨ps, hpieces, hassemble⟩ := ih
    obtain ⟨p, hpiece, hchar⟩ := exists_piece c
    refine ⟨p :: ps, ?_, ?_⟩
    · rw [List.flatMap_cons, List.append_assoc, hpiece, hpieces]
      rfl
    · rw [hchar, hassemble]
      rfl

-- ============================================================================
-- First tokens
-- ============================================================================

theorem head_of_read {r : Numeral × List Char} (h : Numeral.read cs = some r) :
    ∃ c ds, cs = c :: ds ∧ (c = '-' ∨ Decimal.isDigit c = true) := by
  cases cs with
  | nil => contradiction
  | cons c ds =>
    refine ⟨c, ds, rfl, ?_⟩
    by_contra hc
    rw [not_or] at hc
    have hwhole : Numeral.wholePart (c :: ds) = none := by
      simp [Numeral.wholePart, Decimal.run, hc.2]
    simp [Numeral.read, hc.1, hwhole] at h

theorem afterWord?_append (word : String) (cs : List Char) :
    afterWord? word (word.toList ++ cs) = some cs := by
  rw [afterWord?, if_pos (List.isPrefixOf_iff_prefix.2 (List.prefix_append ..)),
    ← String.length_toList, List.drop_left]

section Codec

variable [FloatCodec]

theorem first_stringText (s : String) (rest : List Char) :
    first (stringText s ++ rest) = some (.string (some s), rest) := by
  obtain ⟨ps, hpieces, hassemble⟩ := pieces_stringChars s.toList rest
  have hassoc : stringText s ++ rest = '"' :: (s.toList.flatMap stringChar ++ '"' :: rest) := by
    simp [stringText]
  rw [hassoc, first, hpieces]
  simp [hassemble]

theorem first_of_read {n : Numeral} (h : Numeral.read cs = some (n, rest)) :
    first cs = some (.scalar n.document, rest) := by
  obtain ⟨c, ds, rfl, hc⟩ := head_of_read h
  have hlast : first (c :: ds)
      = (Numeral.read (c :: ds)).map fun r => (.scalar r.1.document, r.2) := by
    rw [first]
    all_goals
      rintro _ ⟨rfl, -⟩
      simp [Decimal.isDigit] at hc
  rw [hlast, h]
  rfl

end Codec

end Token

-- ============================================================================
-- Blanks
-- ============================================================================

theorem ends_of_isSpace {c : Char} (h : isSpace c = true) :
    Decimal.isDigit c = false ∧ c ≠ '.' ∧ c ≠ 'e' ∧ c ≠ 'E' := by
  simp only [isSpace, Bool.or_eq_true, beq_iff_eq] at h
  rcases h with ((rfl | rfl) | rfl) | rfl <;> decide

theorem endsNumber_blanks (hblanks : ∀ c ∈ blanks, isSpace c = true) (h : EndsNumber cs) :
    EndsNumber (blanks ++ cs) := by
  cases blanks with
  | nil => exact h
  | cons c blanks => exact endsNumber_cons (ends_of_isSpace (hblanks c (List.mem_cons_self ..)))

theorem no_blanks : ∀ c ∈ ([] : List Char), isSpace c = true :=
  fun _ hc => absurd hc List.not_mem_nil

theorem one_blank : ∀ c ∈ [' '], isSpace c = true := by
  intro c hc
  rw [List.mem_singleton.1 hc]
  rfl

theorem isSpace_lineBreak (level : Nat) : ∀ c ∈ lineBreak level, isSpace c = true := by
  intro c hc
  rcases List.mem_cons.1 hc with rfl | hc
  · rfl
  · rw [List.eq_of_mem_replicate hc]
    rfl

-- ============================================================================
-- Texts and their tokens
-- ============================================================================

theorem exists_fuel {c : Char} {fuel : Nat} (h : (c :: cs).length ≤ fuel) :
    ∃ left, fuel = left + 1 ∧ cs.length ≤ left := by
  rw [List.length_cons] at h
  exact ⟨fuel - 1, by omega, by omega⟩

section Texts

variable [FloatCodec]

/-- A text has these tokens, whatever follows it that does not go on like a number. -/
def Lexes (cs : List Char) (ts : List Token) : Prop :=
  ∀ rest fuel, EndsNumber rest → (cs ++ rest).length ≤ fuel →
    ∃ left, rest.length ≤ left ∧ all fuel (cs ++ rest) = ts ++ all left rest

theorem Lexes.append (hcs : Lexes cs ts) (hds : Lexes ds us)
    (hend : ∀ rest, EndsNumber rest → EndsNumber (ds ++ rest)) : Lexes (cs ++ ds) (ts ++ us) := by
  intro rest fuel hrest hfuel
  rw [List.append_assoc] at hfuel ⊢
  obtain ⟨left, hleft, hall⟩ := hcs (ds ++ rest) fuel (hend rest hrest) hfuel
  obtain ⟨left', hleft', hall'⟩ := hds rest left hrest hleft
  exact ⟨left', hleft', by rw [hall, hall', List.append_assoc]⟩

theorem all_cons {c : Char} {t : Token} (hspace : isSpace c = false)
    (hfirst : first (c :: cs) = some (t, rest)) (fuel : Nat) :
    all (fuel + 1) (c :: cs) = t :: all fuel rest := by
  rw [all, hspace, if_neg Bool.false_ne_true, hfirst]

theorem lexes_token {c : Char} {t : Token} (hspace : isSpace c = false)
    (h : ∀ rest, EndsNumber rest → first (c :: cs ++ rest) = some (t, rest)) :
    Lexes (c :: cs) [t] := by
  intro rest fuel hrest hfuel
  rw [List.cons_append] at hfuel
  obtain ⟨left, rfl, hleft⟩ := exists_fuel hfuel
  refine ⟨left, ?_, all_cons hspace (h rest hrest) left⟩
  rw [List.length_append] at hleft
  omega

theorem Lexes.mark {c : Char} {t : Token} (hspace : isSpace c = false)
    (hfirst : ∀ rest, first (c :: rest) = some (t, rest)) (h : Lexes cs ts) :
    Lexes (c :: cs) (t :: ts) := by
  intro rest fuel hrest hfuel
  rw [List.cons_append] at hfuel ⊢
  obtain ⟨more, rfl, hmore⟩ := exists_fuel hfuel
  obtain ⟨left, hleft, hall⟩ := h rest more hrest hmore
  refine ⟨left, hleft, ?_⟩
  rw [all_cons hspace (hfirst _), hall, List.cons_append]

theorem Lexes.spaces (hblanks : ∀ c ∈ blanks, isSpace c = true) (h : Lexes cs ts) :
    Lexes (blanks ++ cs) ts := by
  induction blanks with
  | nil => exact h
  | cons c blanks ih =>
    have ih := ih fun d hd => hblanks d (List.mem_cons_of_mem c hd)
    intro rest fuel hrest hfuel
    rw [List.cons_append, List.cons_append] at hfuel ⊢
    obtain ⟨more, rfl, hmore⟩ := exists_fuel hfuel
    obtain ⟨left, hleft, hall⟩ := ih rest more hrest hmore
    refine ⟨left, hleft, ?_⟩
    rw [all, hblanks c (List.mem_cons_self ..), if_pos rfl, hall]

-- ============================================================================
-- Pieces between marks
-- ============================================================================

/-- Lists of tokens with commas between them. -/
def chained : List (List Token) → List Token
  | [] => []
  | [ts] => ts
  | ts :: tss => ts ++ .comma :: chained tss

/-- Pieces with commas and blanks between them have their tokens with commas between them. -/
theorem lexes_joined {pieces : List (List Char)} {tss : List (List Token)}
    (h : List.Forall₂ Lexes pieces tss) (hblanks : ∀ c ∈ blanks, isSpace c = true)
    (hds : Lexes ds us) (hend : ∀ rest, EndsNumber rest → EndsNumber (ds ++ rest)) :
    Lexes (joined (',' :: blanks) pieces ++ ds) (chained tss ++ us) := by
  induction h with
  | nil => exact hds
  | @cons piece ts pieces tss hpiece htail ih =>
    cases htail with
    | nil => exact hpiece.append hds hend
    | @cons next us' pieces' tss' _ _ =>
      have hcomma : Lexes (',' :: (blanks ++ (joined (',' :: blanks) (next :: pieces') ++ ds)))
          (.comma :: (chained (us' :: tss') ++ us)) :=
        Lexes.mark rfl (fun _ => rfl) (ih.spaces hblanks)
      have happend := hpiece.append hcomma fun _ _ => endsNumber_cons (by decide)
      simpa [joined, chained] using happend

/-- Pieces between brackets, with blanks inside of the brackets and after each comma. -/
theorem lexes_bracketed {opening closing : Char} {front back : List Char}
    {open' close' : Token} {pieces : List (List Char)} {tss : List (List Token)}
    (hopening : isSpace opening = false ∧ ∀ rest, first (opening :: rest) = some (open', rest))
    (hclosing : isSpace closing = false ∧ ∀ rest, first (closing :: rest) = some (close', rest))
    (hend : ∀ rest, EndsNumber (closing :: rest)) (hfront : ∀ c ∈ front, isSpace c = true)
    (hback : ∀ c ∈ back, isSpace c = true) (h : List.Forall₂ Lexes pieces tss) :
    Lexes (opening :: (front ++ (joined (',' :: front) pieces ++ (back ++ [closing]))))
      (open' :: (chained tss ++ [close'])) := by
  have hclose : Lexes [closing] [close'] := lexes_token hclosing.1 fun rest _ => hclosing.2 rest
  refine Lexes.mark hopening.1 hopening.2 (Lexes.spaces hfront ?_)
  refine lexes_joined h hfront (hclose.spaces hback) fun rest _ => ?_
  rw [List.append_assoc]
  exact endsNumber_blanks hback (hend rest)

-- ============================================================================
-- Values
-- ============================================================================

mutual

/-- The tokens of a value. -/
def tokens : Json → List Token
  | .null => [.scalar .null]
  | .bool b => [.scalar (.bool b)]
  | .integer n => [.scalar (.integer n)]
  | .float x => [.scalar (.float x)]
  | .string s => [.string (some s)]
  | .array items => .openArray :: (chained (itemTokens items) ++ [.closeArray])
  | .object members => .openObject :: (chained (memberTokens members) ++ [.closeObject])

/-- The tokens of the items of an array, each on its own. -/
def itemTokens : List Json → List (List Token)
  | [] => []
  | v :: vs => tokens v :: itemTokens vs

/-- The tokens of the members of an object, each on its own. -/
def memberTokens : List (String × Json) → List (List Token)
  | [] => []
  | (name, v) :: ms => (.string (some name) :: .colon :: tokens v) :: memberTokens ms

end

mutual

/-- Whether the integers in a value have at most 64 bits, with a sign or without, and its floats
    are finite. -/
def Plain : Json → Prop
  | .integer n => -2 ^ 63 ≤ n ∧ n < 2 ^ 64
  | .float x => x.isFinite = true
  | .array items => ItemsPlain items
  | .object members => MembersPlain members
  | .null | .bool _ | .string _ => True

/-- Whether all items of an array are plain. -/
def ItemsPlain : List Json → Prop
  | [] => True
  | v :: vs => Plain v ∧ ItemsPlain vs

/-- Whether all members of an object are plain. -/
def MembersPlain : List (String × Json) → Prop
  | [] => True
  | (_, v) :: ms => Plain v ∧ MembersPlain ms

end

theorem lexes_word {word : String} {c : Char} {d : Document} (hword : word.toList = c :: cs)
    (hspace : isSpace c = false)
    (hfirst : ∀ ds, first (c :: ds) = (afterWord? word (c :: ds)).map (.scalar d, ·)) :
    Lexes word.toList [.scalar d] := by
  rw [hword]
  refine lexes_token hspace fun rest _ => ?_
  rw [List.cons_append, hfirst, ← List.cons_append, ← hword, afterWord?_append]
  rfl

theorem lexes_numeral {d : Document} (h : ∀ rest, EndsNumber rest → ∃ n : Numeral,
    Numeral.read (cs ++ rest) = some (n, rest) ∧ n.document = d) : Lexes cs [.scalar d] := by
  obtain ⟨n, hne, -⟩ := h [] endsNumber_nil
  rw [List.append_nil] at hne
  obtain ⟨c, ds, rfl, hc⟩ := head_of_read hne
  refine lexes_token ?_ fun rest hrest => ?_
  rotate_left
  · obtain ⟨n, hread, rfl⟩ := h rest hrest
    exact first_of_read hread
  rw [Bool.eq_false_iff]
  intro hspace
  rcases hc with rfl | hdigit
  · contradiction
  · rw [(ends_of_isSpace hspace).1] at hdigit
    contradiction

theorem lexes_string (s : String) : Lexes (stringText s) [.string (some s)] :=
  lexes_token rfl fun rest _ => first_stringText s rest

theorem lexes_bool (b : Bool) :
    Lexes (if b then "true" else "false").toList [.scalar (.bool b)] := by
  cases b with
  | true => exact lexes_word rfl rfl fun _ => rfl
  | false => exact lexes_word rfl rfl fun _ => rfl

/-- A member of an object, with blanks or without after its colon. -/
theorem lexes_member (name : String) (blanks : List Char)
    (hblanks : ∀ c ∈ blanks, isSpace c = true) (h : Lexes cs ts) :
    Lexes (stringText name ++ ':' :: (blanks ++ cs)) (.string (some name) :: .colon :: ts) := by
  have hcolon : Lexes (':' :: (blanks ++ cs)) (.colon :: ts) :=
    Lexes.mark rfl (fun _ => rfl) (h.spaces hblanks)
  exact (lexes_string name).append hcolon fun _ _ => endsNumber_cons (by decide)

/-- An array, with blanks or without between its parts. -/
theorem lexes_array {front back : List Char} {pieces : List (List Char)}
    {tss : List (List Token)} (hfront : ∀ c ∈ front, isSpace c = true)
    (hback : ∀ c ∈ back, isSpace c = true) (h : List.Forall₂ Lexes pieces tss) :
    Lexes ('[' :: (front ++ (joined (',' :: front) pieces ++ (back ++ [']']))))
      (.openArray :: (chained tss ++ [.closeArray])) :=
  lexes_bracketed ⟨rfl, fun _ => rfl⟩ ⟨rfl, fun _ => rfl⟩ (fun _ => endsNumber_cons (by decide))
    hfront hback h

/-- An object, with blanks or without between its parts. -/
theorem lexes_object {front back : List Char} {pieces : List (List Char)}
    {tss : List (List Token)} (hfront : ∀ c ∈ front, isSpace c = true)
    (hback : ∀ c ∈ back, isSpace c = true) (h : List.Forall₂ Lexes pieces tss) :
    Lexes ('\x7b' :: (front ++ (joined (',' :: front) pieces ++ (back ++ ['\x7d']))))
      (.openObject :: (chained tss ++ [.closeObject])) :=
  lexes_bracketed ⟨rfl, fun _ => rfl⟩ ⟨rfl, fun _ => rfl⟩ (fun _ => endsNumber_cons (by decide))
    hfront hback h

-- ============================================================================
-- Values on one line
-- ============================================================================

mutual

theorem lexes_compactChars (hfloats : FloatCodec.Lawful) :
    ∀ v : Json, Plain v → Lexes (compactChars v) (tokens v)
  | .null, _ => lexes_word rfl rfl fun _ => rfl
  | .bool b, _ => lexes_bool b
  | .integer _, h => lexes_numeral fun _ hrest => Numeral.read_integerText h.1 h.2 hrest
  | .float _, h => lexes_numeral fun _ hrest => Numeral.read_floatText hfloats h hrest
  | .string s, _ => lexes_string s
  | .array items, h => lexes_array no_blanks no_blanks (lexes_compactItems hfloats items h)
  | .object members, h => lexes_object no_blanks no_blanks (lexes_compactMembers hfloats members h)

theorem lexes_compactItems (hfloats : FloatCodec.Lawful) : ∀ items : List Json,
    ItemsPlain items → List.Forall₂ Lexes (compactItems items) (itemTokens items)
  | [], _ => .nil
  | v :: vs, h => .cons (lexes_compactChars hfloats v h.1) (lexes_compactItems hfloats vs h.2)

theorem lexes_compactMembers (hfloats : FloatCodec.Lawful) :
    ∀ members : List (String × Json), MembersPlain members →
      List.Forall₂ Lexes (compactMembers members) (memberTokens members)
  | [], _ => .nil
  | (name, v) :: ms, h =>
    .cons (lexes_member name [] no_blanks (lexes_compactChars hfloats v h.1))
      (lexes_compactMembers hfloats ms h.2)

end

-- ============================================================================
-- Values over several lines
-- ============================================================================

theorem lexes_block_array {pieces : List (List Char)} {tss : List (List Token)} (level : Nat)
    (h : List.Forall₂ Lexes pieces tss) :
    Lexes (block level '[' ']' pieces) (.openArray :: (chained tss ++ [.closeArray])) := by
  rw [block]
  cases h with
  | nil => exact lexes_array no_blanks no_blanks .nil
  | cons hpiece htail =>
    have h := lexes_array (isSpace_lineBreak (level + 1)) (isSpace_lineBreak level)
      (.cons hpiece htail)
    simpa using h

theorem lexes_block_object {pieces : List (List Char)} {tss : List (List Token)} (level : Nat)
    (h : List.Forall₂ Lexes pieces tss) :
    Lexes (block level '\x7b' '\x7d' pieces) (.openObject :: (chained tss ++ [.closeObject])) := by
  rw [block]
  cases h with
  | nil => exact lexes_object no_blanks no_blanks .nil
  | cons hpiece htail =>
    have h := lexes_object (isSpace_lineBreak (level + 1)) (isSpace_lineBreak level)
      (.cons hpiece htail)
    simpa using h

mutual

theorem lexes_prettyChars (hfloats : FloatCodec.Lawful) : ∀ (v : Json) (level : Nat), Plain v →
    Lexes (prettyChars level v) (tokens v)
  | .null, _, _ => lexes_word rfl rfl fun _ => rfl
  | .bool b, _, _ => lexes_bool b
  | .integer _, _, h => lexes_numeral fun _ hrest => Numeral.read_integerText h.1 h.2 hrest
  | .float _, _, h => lexes_numeral fun _ hrest => Numeral.read_floatText hfloats h hrest
  | .string s, _, _ => lexes_string s
  | .array items, level, h =>
    lexes_block_array level (lexes_prettyItems hfloats items (level + 1) h)
  | .object members, level, h =>
    lexes_block_object level (lexes_prettyMembers hfloats members (level + 1) h)

theorem lexes_prettyItems (hfloats : FloatCodec.Lawful) : ∀ (items : List Json) (level : Nat),
    ItemsPlain items → List.Forall₂ Lexes (prettyItems level items) (itemTokens items)
  | [], _, _ => .nil
  | v :: vs, level, h =>
    .cons (lexes_prettyChars hfloats v level h.1) (lexes_prettyItems hfloats vs level h.2)

theorem lexes_prettyMembers (hfloats : FloatCodec.Lawful) :
    ∀ (members : List (String × Json)) (level : Nat), MembersPlain members →
      List.Forall₂ Lexes (prettyMembers level members) (memberTokens members)
  | [], _, _ => .nil
  | (name, v) :: ms, level, h =>
    .cons (lexes_member name [' '] one_blank (lexes_prettyChars hfloats v level h.1))
      (lexes_prettyMembers hfloats ms level h.2)

end

/-- The texts of a value: on one line, and over several. -/
def texts (v : Json) : List String :=
  [compact v, pretty v]

/-- Both texts of a value have its tokens. -/
theorem ofText_of_mem_texts (hfloats : FloatCodec.Lawful) {v : Json} (h : Plain v)
    {text : String} (htext : text ∈ texts v) : Token.ofText text = tokens v := by
  have hall : ∀ cs, Lexes cs (tokens v) → Token.ofText (String.ofList cs) = tokens v := by
    intro cs hcs
    obtain ⟨left, -, hall⟩ := hcs [] cs.length endsNumber_nil (by simp)
    have hnil : all left [] = [] := by
      cases left <;> rfl
    rw [hnil, List.append_nil, List.append_nil] at hall
    rw [Token.ofText, String.toList_ofList]
    exact hall
  simp only [texts, List.mem_cons, List.not_mem_nil, or_false] at htext
  rcases htext with rfl | rfl
  · exact hall _ (lexes_compactChars hfloats v h)
  · exact hall _ (lexes_prettyChars hfloats v 0 h)

end Texts

end VersionedStore.Json
