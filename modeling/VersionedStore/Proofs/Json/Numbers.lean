/-
  VersionedStore.Proofs.Json.Numbers

  The numbers of a JSON text that were written out of values read back as them.

  A reader finds each part of a numeral where the next one starts (`read_parts`), and it
  finds the same parts if more follows that does not go on like a number (`read_append`).
  So an integer reads back from its digits, and a float from whatever a lawful codec
  writes for it.

  The codec of the shortest numeral and the nearest float is lawful: its text has a point
  or an exponent, and is worth the shortest numeral of the float wherever its point was
  put (`FloatCodec.lawful_nearest`).
-/
import VersionedStore.Json.Printer
import VersionedStore.Proofs.Decimal.Shortest

namespace VersionedStore.Json

open Decimal (IsNumeral digits isDigit power_length_le)

namespace Numeral

variable {whole rest cs tail : List Char} {fraction : Option (List Char)}

-- ============================================================================
-- The parts of a number
-- ============================================================================

/-- Digits without superfluous zeros in front. -/
def IsWhole (ds : List Char) : Prop :=
  IsNumeral ds ∧ (ds.head? = some '0' → ds.length = 1)

/-- Whether a text does not go on like a number. -/
def EndsNumber (cs : List Char) : Prop :=
  ∀ c ∈ cs.head?, isDigit c = false ∧ c ≠ '.' ∧ c ≠ 'e' ∧ c ≠ 'E'

/-- Decimals after their point, if there are any. -/
def fractionText : Option (List Char) → List Char
  | none => []
  | some ds => '.' :: ds

/-- An exponent with its sign, if there is one. -/
def exponentText : Option Int → List Char
  | none => []
  | some e => ['e', if e < 0 then '-' else '+'] ++ digits e.natAbs

theorem endsNumber_nil : EndsNumber [] := by
  intro c hc
  contradiction

theorem endsNumber_cons {c : Char} (h : isDigit c = false ∧ c ≠ '.' ∧ c ≠ 'e' ∧ c ≠ 'E') :
    EndsNumber (c :: cs) := by
  intro d hd
  rw [List.head?_cons, Option.mem_some_iff] at hd
  rwa [← hd]

theorem wholePart_append (hwhole : IsWhole whole) (hcs : ∀ c ∈ cs.head?, isDigit c = false) :
    wholePart (whole ++ cs) = some (whole, cs) := by
  have hrun := Decimal.run_append hwhole.1.2 hcs
  rw [wholePart, hrun]
  match whole, hwhole with
  | [], h => exact absurd rfl h.1.1
  | [_], _ => split <;> simp_all
  | c :: d :: ds, h =>
    have hc : c ≠ '0' := by
      rintro rfl
      exact absurd (h.2 rfl) (by simp)
    split <;> simp_all

theorem decimalPart_none (h : ∀ c ∈ cs.head?, c ≠ '.') : decimalPart cs = some (none, cs) := by
  cases cs with
  | nil => rfl
  | cons c cs =>
    rw [decimalPart]
    intro ds hds
    exact h c rfl (List.cons.inj hds).1

theorem decimalPart_append (hfraction : ∀ ds ∈ fraction, IsNumeral ds)
    (hcs : ∀ c ∈ cs.head?, isDigit c = false ∧ c ≠ '.') :
    decimalPart (fractionText fraction ++ cs) = some (fraction, cs) := by
  cases fraction with
  | none => exact decimalPart_none fun c hc => (hcs c hc).2
  | some ds =>
    have hds := hfraction ds rfl
    have hrun := Decimal.run_append hds.2 fun c hc => (hcs c hc).1
    rw [fractionText, List.cons_append, decimalPart, hrun]
    match ds, hds with
    | [], h => exact absurd rfl h.1
    | _ :: _, _ => rfl

theorem exponentPart_none (h : ∀ c ∈ cs.head?, c ≠ 'e' ∧ c ≠ 'E') :
    exponentPart cs = some (none, cs) := by
  cases cs with
  | nil => rfl
  | cons c cs =>
    obtain ⟨hlower, hupper⟩ := h c rfl
    rw [exponentPart] <;> simp_all

theorem exponentPart_exponentText (exponent : Option Int) :
    exponentPart (exponentText exponent) = some (exponent, []) := by
  cases exponent with
  | none => rfl
  | some e =>
    have hdigits := Decimal.isNumeral_digits e.natAbs
    have hvalue := Decimal.value_digits e.natAbs
    have hrun := Decimal.run_append hdigits.2
      (show ∀ c ∈ ([] : List Char).head?, isDigit c = false by simp)
    obtain ⟨d, ds, hcons⟩ := List.exists_cons_of_ne_nil hdigits.1
    rw [List.append_nil, hcons] at hrun
    rw [hcons] at hvalue
    have hsigned (sign : Int) :
        signedDigits sign (d :: ds) = some (some (sign * e.natAbs), []) := by
      rw [signedDigits, hrun, ← hvalue]
    by_cases he : e < 0
    · have hsign : -1 * (e.natAbs : Int) = e := by omega
      rw [exponentText, if_pos he, hcons]
      exact (hsigned (-1)).trans (by rw [hsign])
    · have hsign : 1 * (e.natAbs : Int) = e := by omega
      rw [exponentText, if_neg he, hcons]
      exact (hsigned 1).trans (by rw [hsign])

theorem head_exponentText (exponent : Option Int) :
    ∀ c ∈ (exponentText exponent).head?, isDigit c = false ∧ c ≠ '.' := by
  intro c hc
  cases exponent with
  | none => contradiction
  | some e =>
    obtain rfl : 'e' = c := Option.some.inj hc
    decide

/-- A numeral is read by its parts. -/
theorem read_parts (negative : Bool) (fraction : Option (List Char)) (exponent : Option Int)
    (hwhole : IsWhole whole) (hfraction : ∀ ds ∈ fraction, IsNumeral ds) :
    read (Decimal.sign negative ++ whole ++ fractionText fraction ++ exponentText exponent)
      = some (⟨negative, whole, fraction, exponent⟩, []) := by
  have hend : ∀ c ∈ (fractionText fraction ++ exponentText exponent).head?,
      isDigit c = false := by
    intro c hc
    cases fraction with
    | none => exact (head_exponentText exponent c hc).1
    | some ds =>
      obtain rfl : '.' = c := Option.some.inj hc
      rfl
  have hwholePart := wholePart_append hwhole hend
  have hdecimals := decimalPart_append hfraction (head_exponentText exponent)
  obtain ⟨first, more, hcons⟩ := List.exists_cons_of_ne_nil hwhole.1.1
  have hfirst : first ≠ '-' := by
    rintro rfl
    exact absurd (hwhole.1.2 '-' (hcons ▸ List.mem_cons_self ..)) (by decide)
  set body := whole ++ (fractionText fraction ++ exponentText exponent) with hbody
  have hsign : (Decimal.sign negative ++ body).head? = some '-' ↔ negative = true := by
    cases negative with
    | true => simp [Decimal.sign]
    | false => simp [Decimal.sign, hbody, hcons, hfirst]
  have hdrop : (if negative = true then (Decimal.sign negative ++ body).drop 1
      else Decimal.sign negative ++ body) = body := by
    cases negative <;> rfl
  have hassoc : Decimal.sign negative ++ whole ++ fractionText fraction ++ exponentText exponent
      = Decimal.sign negative ++ body := by
    simp only [hbody, List.append_assoc]
  rw [hassoc, read]
  simp only [hdrop, hwholePart, hdecimals, exponentPart_exponentText, hsign, Option.bind_eq_bind,
    Option.bind_some, Bool.decide_eq_true]

-- ============================================================================
-- Numerals that more follows
-- ============================================================================

theorem wholePart_append_right (hrest : EndsNumber rest) (h : wholePart cs = some (whole, tail)) :
    wholePart (cs ++ rest) = some (whole, tail ++ rest) := by
  have hrun := Decimal.run_append_right (fun c hc => (hrest c hc).1) cs
  rw [wholePart] at h ⊢
  rw [hrun]
  generalize Decimal.run cs = r at h ⊢
  obtain ⟨ds, after⟩ := r
  split at h
  next => contradiction
  next => contradiction
  next hempty hzero =>
    obtain ⟨rfl, rfl⟩ := Prod.mk.inj (Option.some.inj h)
    split <;> simp_all

theorem decimalPart_append_right (hrest : EndsNumber rest)
    (h : decimalPart cs = some (fraction, tail)) :
    decimalPart (cs ++ rest) = some (fraction, tail ++ rest) := by
  unfold decimalPart at h
  split at h
  next ds =>
    have hrun := Decimal.run_append_right (fun c hc => (hrest c hc).1) ds
    rw [List.cons_append, decimalPart, hrun]
    generalize Decimal.run ds = r at h ⊢
    obtain ⟨digits, after⟩ := r
    cases digits with
    | nil => contradiction
    | cons d digits =>
      obtain ⟨rfl, rfl⟩ := Prod.mk.inj (Option.some.inj h)
      rfl
  next hpoint =>
    obtain ⟨rfl, rfl⟩ := Prod.mk.inj (Option.some.inj h)
    refine decimalPart_none fun c hc => ?_
    cases cs with
    | nil => exact (hrest c hc).2.1
    | cons d cs =>
      obtain rfl := Option.some.inj hc
      rintro rfl
      exact hpoint cs rfl

theorem signedDigits_append_right (hrest : EndsNumber rest) {sign : Int} {e : Option Int}
    (h : signedDigits sign cs = some (e, tail)) :
    signedDigits sign (cs ++ rest) = some (e, tail ++ rest) := by
  have hrun := Decimal.run_append_right (fun c hc => (hrest c hc).1) cs
  rw [signedDigits] at h ⊢
  rw [hrun]
  generalize Decimal.run cs = r at h ⊢
  obtain ⟨digits, after⟩ := r
  cases digits with
  | nil => contradiction
  | cons d digits =>
    obtain ⟨rfl, rfl⟩ := Prod.mk.inj (Option.some.inj h)
    rfl

theorem exponentPart_append_right (hrest : EndsNumber rest) {e : Option Int}
    (h : exponentPart cs = some (e, tail)) :
    exponentPart (cs ++ rest) = some (e, tail ++ rest) := by
  unfold exponentPart at h
  split at h
  iterate 4 exact signedDigits_append_right hrest h
  iterate 2
    next ds hminus hplus =>
      cases ds with
      | nil => contradiction
      | cons d ds =>
        have happend := signedDigits_append_right hrest h
        rw [List.cons_append] at happend ⊢
        rw [List.cons_append, exponentPart, happend] <;> simp_all
  next =>
    obtain ⟨rfl, rfl⟩ := Prod.mk.inj (Option.some.inj h)
    cases cs with
    | nil => exact exponentPart_none fun c hc => (hrest c hc).2.2
    | cons c cs =>
      rw [List.cons_append, exponentPart] <;> simp_all

/-- What follows a numeral is left over, unless it goes on like a number. -/
theorem read_append {n : Numeral} (hrest : EndsNumber rest) (h : read cs = some (n, [])) :
    read (cs ++ rest) = some (n, rest) := by
  cases cs with
  | nil => contradiction
  | cons c cs =>
    obtain ⟨⟨whole, after⟩, hwhole, h⟩ := Option.bind_eq_some_iff.1 h
    obtain ⟨⟨decimals, after'⟩, hdecimals, h⟩ := Option.bind_eq_some_iff.1 h
    obtain ⟨⟨exponent, after''⟩, hexponent, h⟩ := Option.bind_eq_some_iff.1 h
    obtain ⟨rfl, rfl⟩ := Prod.mk.inj (Option.some.inj h)
    have hbody : (if (c :: cs ++ rest).head? = some '-' then (c :: cs ++ rest).drop 1
        else c :: cs ++ rest) = (if (c :: cs).head? = some '-' then (c :: cs).drop 1
        else c :: cs) ++ rest := by
      split <;> simp_all
    simp only [read, hbody, wholePart_append_right hrest hwhole,
      decimalPart_append_right hrest hdecimals, exponentPart_append_right hrest hexponent,
      Option.bind_eq_bind, Option.bind_some]
    rfl

-- ============================================================================
-- Integers
-- ============================================================================

theorem isWhole_digits (n : Nat) : IsWhole (digits n) := by
  refine ⟨Decimal.isNumeral_digits n, fun hhead => ?_⟩
  rcases Nat.eq_zero_or_pos n with rfl | hpos
  · rfl
  · exact absurd hhead (Decimal.head?_digits hpos.ne')

/-- An integer of 64 bits, with a sign or without, reads back as it. -/
theorem read_integerText [FloatCodec] {n : Int} (hlow : -2 ^ 63 ≤ n) (hhigh : n < 2 ^ 64)
    (hrest : EndsNumber rest) :
    ∃ m : Numeral, read (integerText n ++ rest) = some (m, rest) ∧ m.document = .integer n := by
  have h := read_parts (decide (n < 0)) none none (isWhole_digits n.natAbs) (by simp)
  simp only [fractionText, exponentText, List.append_nil] at h
  refine ⟨⟨decide (n < 0), digits n.natAbs, none, none⟩, read_append hrest h, ?_⟩
  have hword : (uint64? n.natAbs).isNone = false := by
    have hsize : UInt64.size = 2 ^ 64 := rfl
    rw [uint64?, if_pos ⟨by omega, by omega⟩]
    rfl
  simp only [document, isInteger, Decimal.value_digits, hword, Option.isNone_none, Bool.and_self,
    Bool.not_true, Bool.or_self]
  by_cases hneg : n < 0
  · have hsigned : (int64? n).isSome = true := by
      rw [Option.isSome_iff_ne_none, ne_eq, int64?_eq_none_iff]
      have hmin : Int64.minValue.toInt = -2 ^ 63 := rfl
      have hmax : Int64.maxValue.toInt = 2 ^ 63 - 1 := rfl
      omega
    have habs : -(n.natAbs : Int) = n := by omega
    have hzero : n.natAbs ≠ 0 := by omega
    rw [if_neg (by decide), if_neg (by simp [hneg]), if_neg hzero, habs, if_pos hsigned]
  · have habs : (n.natAbs : Int) = n := by omega
    rw [if_neg (by decide), if_pos (by simp [hneg]), habs]

-- ============================================================================
-- Floats
-- ============================================================================

/-- A finite float reads back from what a lawful codec writes for it. -/
theorem read_floatText [FloatCodec] (hfloats : FloatCodec.Lawful) {x : Double}
    (hfin : x.isFinite = true) (hrest : EndsNumber rest) : ∃ n : Numeral,
    read (FloatCodec.text x ++ rest) = some (n, rest) ∧ n.document = .float x := by
  obtain ⟨n, hread, hfloat, rfl⟩ := hfloats x hfin
  refine ⟨n, read_append hrest hread, ?_⟩
  rw [document, hfloat, Bool.not_false, Bool.true_or, if_pos rfl, finite, if_pos hfin]

-- ============================================================================
-- Shortest numerals and nearest floats
-- ============================================================================

/-- Around its point, a numeral keeps its value. -/
theorem positionalText_parts {m : Nat} (hm : m ≠ 0) (e : Int) :
    ∃ whole ds, Decimal.positionalText (digits m) (e + (digits m).length - 1)
        = whole ++ fractionText (some ds) ∧ IsWhole whole ∧ IsNumeral ds ∧
      (Decimal.value (whole ++ ds) : ℚ) * 10 ^ (-ds.length : Int) = m * 10 ^ e := by
  have hnumeral := Decimal.isNumeral_digits m
  have hhead := Decimal.head?_digits hm
  have hvalue := Decimal.value_digits m
  have hlength := List.length_pos_of_ne_nil hnumeral.1
  set ds := digits m with hds
  rw [Decimal.positionalText]
  split
  next hneg =>
    refine ⟨['0'], List.replicate (-(e + ds.length - 1) - 1).toNat '0' ++ ds, ?_, ?_, ?_, ?_⟩
    · simp [fractionText]
    · exact isWhole_digits 0
    · exact Decimal.isNumeral_append_right (fun c => Decimal.isDigit_of_mem_zeros) hnumeral
    · have hzeros := Decimal.value_zeros_append ((-(e + ds.length - 1) - 1).toNat + 1) ds
      rw [List.replicate_succ, List.cons_append] at hzeros
      rw [List.singleton_append, hzeros, hvalue]
      congr 2
      rw [List.length_append, List.length_replicate]
      omega
  next hneg =>
    dsimp only
    split
    next hle =>
      refine ⟨ds ++ List.replicate ((e + ds.length - 1).toNat + 1 - ds.length) '0', ['0'],
        ?_, ⟨?_, ?_⟩, ?_, ?_⟩
      · simp [fractionText]
      · exact Decimal.isNumeral_append_left hnumeral fun c => Decimal.isDigit_of_mem_zeros
      · rw [List.head?_append_of_ne_nil _ hnumeral.1]
        exact fun h => absurd h hhead
      · exact Decimal.isNumeral_digits 0
      · obtain ⟨k, rfl⟩ := Int.eq_ofNat_of_zero_le (show 0 ≤ e by omega)
        have hk : (k + ds.length - 1 : Int).toNat + 1 - ds.length = k := by omega
        rw [hk, List.append_assoc, ← List.replicate_succ', Decimal.value_append_zeros, hvalue,
          power, Nat.pow_eq, Nat.pow_succ, List.length_singleton, Nat.cast_one,
          zpow_neg_one, zpow_natCast]
        push_cast
        ring
    next hgt =>
      refine ⟨ds.take ((e + ds.length - 1).toNat + 1), ds.drop ((e + ds.length - 1).toNat + 1),
        ?_, ⟨⟨?_, ?_⟩, ?_⟩, ⟨?_, ?_⟩, ?_⟩
      · simp [fractionText]
      · simp [hnumeral.1]
      · exact fun c hc => hnumeral.2 c (List.mem_of_mem_take hc)
      · rw [List.head?_take, if_neg (by omega)]
        exact fun h => absurd h hhead
      · rw [ne_eq, List.drop_eq_nil_iff]
        omega
      · exact fun c hc => hnumeral.2 c (List.mem_of_mem_drop hc)
      · rw [List.take_append_drop, hvalue, List.length_drop]
        congr 2
        omega

theorem exponentText_parts {m : Nat} (hm : m ≠ 0) (e : Int) :
    ∃ whole fraction, Decimal.exponentText (digits m) (e + (digits m).length - 1)
        = whole ++ fractionText fraction ++ exponentText (some (e + (digits m).length - 1)) ∧
      IsWhole whole ∧ (∀ ds ∈ fraction, IsNumeral ds) ∧
      Decimal.value (whole ++ fraction.getD []) = m ∧
      e + (digits m).length - 1 - (fraction.getD []).length = e := by
  have hnumeral := Decimal.isNumeral_digits m
  have hhead := Decimal.head?_digits hm
  have hvalue := Decimal.value_digits m
  rw [Decimal.exponentText, exponentText]
  match hds : digits m with
  | [] => exact absurd hds hnumeral.1
  | [d] =>
    rw [hds] at hvalue
    refine ⟨[d], none, by simp [fractionText], ⟨?_, fun _ => rfl⟩, by simp, ?_, ?_⟩
    · exact hds ▸ hnumeral
    · simpa using hvalue
    · simp
  | d :: c :: cs =>
    rw [hds] at hhead hvalue hnumeral
    refine ⟨[d], some (c :: cs), by simp [fractionText], ⟨?_, fun _ => rfl⟩, ?_, ?_, ?_⟩
    · exact ⟨by simp, fun b hb => hnumeral.2 b (by simp_all)⟩
    · rintro _ ⟨rfl⟩
      exact ⟨by simp, fun b hb => hnumeral.2 b (List.mem_cons_of_mem _ hb)⟩
    · simpa using hvalue
    · rw [Option.getD_some, List.length_cons, List.length_cons]
      omega

theorem isZero_iff (x : Double) : x.isZero = true ↔ x.significand = 0 := by
  have hcount : 0 < Double.fractionCount := by decide
  rw [Double.isZero, Double.significand, Bool.and_eq_true, beq_iff_eq, beq_iff_eq]
  split <;> omega

theorem ofDecimal_zero {x : Double} (hzero : x.significand = 0) (e : Int) :
    Double.ofDecimal x.isNegative 0 e = x := by
  have hscale : x.scale = -1074 := by
    by_contra hne
    have hleast : -1074 ≤ x.scale := by
      rw [Double.scale]
      omega
    have hle := Double.fractionCount_le_significand (x := x) (by omega)
    rw [hzero] at hle
    exact absurd hle (by decide)
  have hparts := x.ofMagnitude_parts
  rw [hzero, hscale] at hparts
  rw [Double.ofDecimal, if_pos rfl]
  exact hparts

/-- A float is spelled by every numeral among the reals that round to it. -/
theorem spells_of_mem {x : Double} (fraction : Option (List Char)) (exponent : Option Int)
    (hfin : x.isFinite = true) (hpos : 0 < x.significand) (hwhole : IsWhole whole)
    (hfraction : ∀ ds ∈ fraction, IsNumeral ds)
    (hmark : (fraction.isNone && exponent.isNone) = false)
    (hmem : (Decimal.Interval.ofDouble x).Mem (Decimal.value (whole ++ fraction.getD []) *
      10 ^ (exponent.getD 0 - (fraction.getD []).length))) :
    FloatCodec.Spells (Decimal.sign x.isNegative ++ whole ++ fractionText fraction
      ++ exponentText exponent) x := by
  have hread := read_parts x.isNegative fraction exponent hwhole hfraction
  exact ⟨_, hread, hmark, Double.ofDecimal_of_mem hfin hpos hmem⟩

theorem toList_text {x : Double} (hfin : x.isFinite = true) :
    (Decimal.text .compact x).toList = Decimal.sign x.isNegative ++
      if x.isZero then ['0', '.', '0']
      else
        let n := Decimal.shortest .even x
        let ds := digits n.digits
        let e := n.exponent + ds.length - 1
        if Decimal.Layout.compact.isPositional e then Decimal.positionalText ds e
        else Decimal.exponentText ds e := by
  have hnan : x.isNaN = false := by
    have hne : x.exponentField ≠ 2047 := (Double.exponentField_lt hfin).ne
    simp [Double.isNaN, hne]
  rw [Decimal.text, hnan, if_neg Bool.false_ne_true, String.toList_ofList, hfin]
  rfl

end Numeral

open Numeral in
/-- The shortest numeral of a finite float spells it to the reader of the nearest float. -/
theorem FloatCodec.lawful_nearest : FloatCodec.Lawful := by
  intro x hfin
  show Spells (Decimal.text .compact x).toList x
  rw [toList_text hfin]
  by_cases hzero : x.significand = 0
  · have hread := read_parts x.isNegative (some ['0']) none (isWhole_digits 0)
      (fun _ hds => Option.some.inj hds ▸ Decimal.isNumeral_digits 0)
    rw [if_pos ((isZero_iff x).2 hzero)]
    refine ⟨⟨x.isNegative, ['0'], some ['0'], none⟩, ?_, rfl, ofDecimal_zero hzero _⟩
    simpa [fractionText, exponentText, digits] using hread
  · have hpos := Nat.pos_of_ne_zero hzero
    obtain ⟨hdigits, hmem⟩ := Decimal.shortest_mem .even hpos
    rw [if_neg (mt (isZero_iff x).1 hzero)]
    dsimp only
    split
    · obtain ⟨whole, ds, htext, hwhole, hds, hvalue⟩ :=
        positionalText_parts hdigits (Decimal.shortest .even x).exponent
      have h := spells_of_mem (some ds) none hfin hpos hwhole
        (fun _ h => Option.some.inj h ▸ hds) rfl (by
          rw [Option.getD_some, Option.getD_none, zero_sub, hvalue]
          exact hmem)
      rw [htext]
      simpa [exponentText] using h
    · obtain ⟨whole, fraction, htext, hwhole, hfraction, hvalue, hexponent⟩ :=
        exponentText_parts hdigits (Decimal.shortest .even x).exponent
      have h := spells_of_mem fraction (some _) hfin hpos hwhole hfraction (by simp) (by
        rw [hvalue, Option.getD_some, hexponent]
        exact hmem)
      rw [htext]
      simpa using h

end VersionedStore.Json
