/-
  VersionedStore.Proofs.Token.Grammar

  Which texts name a version token.

  `Form` is the grammar: digits, digits between quotes, or a weak tag.  A text
  `Names` a number if, apart from blanks around it, it is one of the forms.  No
  form starts or ends in a blank, so trimming a text finds the form in it, and a
  form can be told by its first characters alone.
-/
import VersionedStore.Proofs.Decimal.Numerals
import VersionedStore.Token

namespace VersionedStore

namespace Text

variable {front core back cs : List Char}

theorem trimStart_append (hfront : ∀ c ∈ front, isBlank c = true) :
    trimStart (front ++ cs) = trimStart cs := by
  rw [trimStart, List.dropWhile_append_of_pos hfront, trimStart]

theorem trimEnd_append (hback : ∀ c ∈ back, isBlank c = true) :
    trimEnd (cs ++ back) = trimEnd cs := by
  have hreverse : ∀ c ∈ back.reverse, isBlank c = true :=
    fun c hc => hback c (List.mem_reverse.1 hc)
  rw [trimEnd, List.reverse_append, List.dropWhile_append_of_pos hreverse, trimEnd]

/-- Trimming finds what has no blank at either end. -/
theorem trim_append (hfront : ∀ c ∈ front, isBlank c = true)
    (hback : ∀ c ∈ back, isBlank c = true) (hne : core ≠ [])
    (hfirst : ∀ c ∈ core.head?, isBlank c = false)
    (hlast : ∀ c ∈ core.getLast?, isBlank c = false) :
    trim (front ++ core ++ back) = core := by
  have hstart : trimStart (core ++ back) = core ++ back := by
    cases core with
    | nil => contradiction
    | cons c rest => simp [trimStart, hfirst c rfl]
  have hcore : trimStart core = core := by
    cases core with
    | nil => contradiction
    | cons c rest => simp [trimStart, hfirst c rfl]
  have hself := trim_eq_self hfirst hlast
  rw [trim, hcore] at hself
  rw [List.append_assoc, trim, trimStart_append hfront, hstart, trimEnd_append hback, hself]

/-- A text is what trimming finds, between blanks. -/
theorem exists_trim (cs : List Char) :
    ∃ front back, (∀ c ∈ front, isBlank c = true) ∧ (∀ c ∈ back, isBlank c = true) ∧
      cs = front ++ trim cs ++ back := by
  obtain ⟨front, hfront, hstart⟩ := exists_trimStart cs
  obtain ⟨back, hback, hend⟩ := exists_trimEnd (trimStart cs)
  refine ⟨front, back, hfront, hback, ?_⟩
  rw [List.append_assoc, trim, ← hend, ← hstart]

theorem isBlank_of_isDigit {c : Char} (h : Decimal.isDigit c = true) : isBlank c = false := by
  simp only [Decimal.isDigit, Bool.and_eq_true, decide_eq_true_eq] at h
  have hzero : '0'.toNat = 48 := rfl
  have hnine : '9'.toNat = 57 := rfl
  rw [isBlank, List.any_eq_false]
  intro r hr
  simp only [blankRanges, List.mem_cons, List.not_mem_nil, or_false] at hr
  simp only [Bool.and_eq_true, decide_eq_true_eq]
  rcases hr with rfl | rfl | rfl | rfl | rfl | rfl | rfl | rfl | rfl | rfl <;> dsimp only <;> omega

end Text

namespace Version

open Text Decimal

-- ============================================================================
-- The grammar
-- ============================================================================

/-- The forms of a token, and the number that each of them names. -/
inductive Form : List Char → Nat → Prop where
  | bare {ds : List Char} (hds : IsNumeral ds) : Form ds (value ds)
  | quoted {ds : List Char} (hds : IsNumeral ds) : Form ('"' :: ds ++ ['"']) (value ds)
  | weak {ds : List Char} (hds : IsNumeral ds) :
      Form ('W' :: '/' :: '"' :: ds ++ ['"']) (value ds)

/-- A text names a number if it is one of the forms with blanks around it. -/
def Names (text : String) (n : Nat) : Prop :=
  ∃ front core back, (∀ c ∈ front, isBlank c = true) ∧ (∀ c ∈ back, isBlank c = true) ∧
    text.toList = front ++ core ++ back ∧ Form core n

variable {cs : List Char} {n : Nat} {v : Version}

theorem Form.ne_nil (h : Form cs n) : cs ≠ [] := by
  cases h with
  | bare hds => exact hds.1
  | quoted | weak => exact List.cons_ne_nil _ _

theorem Form.isBlank_head (h : Form cs n) : ∀ c ∈ cs.head?, isBlank c = false := by
  cases h with
  | bare hds => exact fun c hc => isBlank_of_isDigit (hds.2 c (List.mem_of_mem_head? hc))
  | quoted | weak =>
    rintro c ⟨⟩
    decide

theorem Form.isBlank_getLast (h : Form cs n) : ∀ c ∈ cs.getLast?, isBlank c = false := by
  cases h with
  | bare hds => exact fun c hc => isBlank_of_isDigit (hds.2 c (List.mem_of_mem_getLast? hc))
  | quoted | weak =>
    intro c hc
    rw [List.getLast?_append, List.getLast?_singleton, Option.some_or] at hc
    cases hc
    decide

theorem names_iff {text : String} : Names text n ↔ Form (trim text.toList) n := by
  constructor
  · rintro ⟨front, core, back, hfront, hback, htext, hform⟩
    rwa [htext, trim_append hfront hback hform.ne_nil hform.isBlank_head hform.isBlank_getLast]
  · intro hform
    obtain ⟨front, back, hfront, hback, htext⟩ := exists_trim text.toList
    exact ⟨front, _, back, hfront, hback, htext, hform⟩

-- ============================================================================
-- The reader
-- ============================================================================

theorem ofDigits?_eq_some_iff :
    ofDigits? cs = some v ↔ IsNumeral cs ∧ value cs = v.raw.toNat := by
  have hlt := v.raw.toNat_lt_size
  cases hdigits : digits? cs with
  | none =>
    have hno : ¬(IsNumeral cs ∧ value cs = v.raw.toNat) := by
      rw [← digits?_eq_some_iff_isNumeral, hdigits]
      exact Option.not_mem_none _
    simp [ofDigits?, hdigits, hno]
  | some m =>
    obtain ⟨hnumeral, hvalue⟩ := digits?_eq_some_iff_isNumeral.1 hdigits
    simp only [ofDigits?, hdigits, Option.bind_eq_bind, Option.bind_some, hnumeral, hvalue,
      true_and]
    constructor
    · intro h
      split at h
      next hsize =>
        rw [← Option.some.inj h, UInt64.toNat_ofNat_of_lt' hsize]
      next => contradiction
    · rintro rfl
      rw [if_pos hlt, UInt64.ofNat_toNat]

/-- What stands after the opening quote of a token: its digits and the closing quote. -/
theorem ofQuoted?_eq_some_iff :
    ofQuoted? cs = some v ↔
      ∃ ds, cs = ds ++ ['"'] ∧ IsNumeral ds ∧ value ds = v.raw.toNat := by
  unfold ofQuoted?
  constructor
  · intro h
    split at h
    next hlast =>
      obtain ⟨ds, rfl⟩ := List.getLast?_eq_some_iff.1 hlast
      rw [List.dropLast_concat] at h
      exact ⟨ds, rfl, ofDigits?_eq_some_iff.1 h⟩
    next => contradiction
  · rintro ⟨ds, rfl, hnumeral, hvalue⟩
    rw [if_pos (by simp), List.dropLast_concat]
    exact ofDigits?_eq_some_iff.2 ⟨hnumeral, hvalue⟩

theorem ofTag?_eq_some_iff : ofTag? cs = some v ↔ Form cs v.raw.toNat := by
  constructor
  · intro h
    unfold ofTag? at h
    split at h
    next rest =>
      obtain ⟨ds, rfl, hnumeral, hvalue⟩ := ofQuoted?_eq_some_iff.1 h
      exact hvalue ▸ .weak hnumeral
    next rest =>
      obtain ⟨ds, rfl, hnumeral, hvalue⟩ := ofQuoted?_eq_some_iff.1 h
      exact hvalue ▸ .quoted hnumeral
    next =>
      obtain ⟨hnumeral, hvalue⟩ := ofDigits?_eq_some_iff.1 h
      exact hvalue ▸ .bare hnumeral
  · intro h
    generalize hn : v.raw.toNat = n at h
    cases h with
    | bare hds =>
      have hdigits : ofDigits? cs = some v := ofDigits?_eq_some_iff.2 ⟨hds, hn.symm⟩
      unfold ofTag?
      split
      next => exact absurd (hds.2 'W' List.mem_cons_self) (by decide)
      next => exact absurd (hds.2 '"' List.mem_cons_self) (by decide)
      next => exact hdigits
    | quoted hds => exact ofQuoted?_eq_some_iff.2 ⟨_, rfl, hds, hn.symm⟩
    | weak hds => exact ofQuoted?_eq_some_iff.2 ⟨_, rfl, hds, hn.symm⟩

theorem ofText_eq_ok_iff {text : String} : ofText text = .ok v ↔ Names text v.raw.toNat := by
  rw [names_iff, ← ofTag?_eq_some_iff, ofText]
  cases ofTag? (trim text.toList) <;> simp

theorem ofText_eq_error_iff {text : String} {e : Malformed} :
    ofText text = .error e ↔ e = ⟨text⟩ ∧ ∀ v : Version, ¬Names text v.raw.toNat := by
  have hnames : ∀ v : Version, Names text v.raw.toNat ↔ ofTag? (trim text.toList) = some v :=
    fun v => names_iff.trans ofTag?_eq_some_iff.symm
  simp only [hnames, ofText]
  cases ofTag? (trim text.toList) with
  | none => simp [eq_comm]
  | some w => simp

-- ============================================================================
-- The tokens that are handed out
-- ============================================================================

theorem toList_text (v : Version) : v.text.toList = digits v.raw.toNat :=
  Nat.toList_repr

/-- The ways in which a token may be handed in: bare, between quotes, or as a weak tag. -/
def dressings (v : Version) : List String :=
  [v.text, "\"" ++ v.text ++ "\"", "W/\"" ++ v.text ++ "\""]

theorem form_of_mem_dressings {s : String} (h : s ∈ v.dressings) : Form s.toList v.raw.toNat := by
  have hds := isNumeral_digits v.raw.toNat
  have hvalue := value_digits v.raw.toNat
  have hquoted := Form.quoted hds
  have hweak := Form.weak hds
  have hbare := Form.bare hds
  rw [hvalue] at hquoted hweak hbare
  simp only [dressings, List.mem_cons, List.not_mem_nil, or_false] at h
  rcases h with rfl | rfl | rfl
  · rwa [toList_text]
  · rw [String.toList_append, String.toList_append, toList_text]
    exact hquoted
  · rw [String.toList_append, String.toList_append, toList_text]
    exact hweak

/-- A text reads as a token exactly if it names the token's number; every other text is refused
    with the text as it was given.  So a token that was handed out reads back, in whatever form
    and between whatever blanks it is handed in. -/
theorem ofText_grammar (text : String) :
    (∀ v, ofText text = .ok v ↔ Names text v.raw.toNat) ∧
      (∀ e, ofText text = .error e ↔ e = ⟨text⟩ ∧ ∀ v : Version, ¬Names text v.raw.toNat) ∧
      ∀ (v : Version) (front back : String), isBlankText front = true → isBlankText back = true →
        ∀ s ∈ v.dressings, ofText (front ++ s ++ back) = .ok v := by
  refine ⟨fun v => ofText_eq_ok_iff, fun e => ofText_eq_error_iff, ?_⟩
  intro v front back hfront hback s hs
  refine ofText_eq_ok_iff.2 ⟨front.toList, s.toList, back.toList, List.all_eq_true.1 hfront,
    List.all_eq_true.1 hback, ?_, form_of_mem_dressings hs⟩
  rw [String.toList_append, String.toList_append]

/-- The greatest token as a weak tag between blanks of two kinds reads back. -/
theorem ofText_grammar_greatest :
    let v : Version := ⟨18446744073709551615⟩
    isBlankText "\t" = true ∧ isBlankText "\u2003 " = true ∧
      "W/\"" ++ v.text ++ "\"" ∈ v.dressings ∧
      ofText ("\t" ++ ("W/\"" ++ v.text ++ "\"") ++ "\u2003 ") = .ok v := by
  intro v
  have hfront : isBlankText "\t" = true := by decide
  have hback : isBlankText "\u2003 " = true := by decide
  have hmem : "W/\"" ++ v.text ++ "\"" ∈ v.dressings := by simp [dressings]
  exact ⟨hfront, hback, hmem, (ofText_grammar "").2.2 v "\t" "\u2003 " hfront hback _ hmem⟩

end Version

end VersionedStore
