/-
  VersionedStore.Proofs.Decimal.Shortest

  The shortest numeral of a finite double lies in the interval of the reals that
  round to it.

  A multiple of a power of ten that is found is in the interval because it was
  tested.  One is found at the latest with seventeen digits: the multiples are then
  closer to each other than the ends of the interval are.
-/
import VersionedStore.Proofs.Decimal.Numerals
import VersionedStore.Proofs.Double.Rounding

namespace VersionedStore.Decimal

-- ============================================================================
-- The leading exponent
-- ============================================================================

theorem leadingExponent_le {n d : Nat} (hn : 0 < n) (hd : 0 < d) :
    (10 : ℚ) ^ leadingExponent n d ≤ n / d := by
  have hn' : (0 : ℚ) < n := Nat.cast_pos.2 hn
  have hd' : (0 : ℚ) < d := Nat.cast_pos.2 hd
  have hlength : ∀ m, 1 ≤ length m := fun m => Nat.length_toDigits_pos
  rw [leadingExponent]
  split
  next hle =>
    have hq := power_length_le (Nat.div_pos hle hd).ne'
    calc (10 : ℚ) ^ ((length (n / d) : Int) - 1)
        = ((10 ^ (length (n / d) - 1) : Nat) : ℚ) := by
          rw [Nat.cast_pow, ← zpow_natCast, Nat.cast_sub (hlength _)]
          rfl
      _ ≤ ((n / d : Nat) : ℚ) := by exact_mod_cast hq
      _ ≤ n / d := (le_div_iff₀ hd').2 (by exact_mod_cast Nat.div_mul_le_self n d)
  next hlt =>
    have hlow : ∀ l : Nat, d ≤ n * power 10 l → (10 : ℚ) ^ (-l : Int) ≤ n / d := by
      intro l hle
      have hle' : (d : ℚ) ≤ n * 10 ^ l := by exact_mod_cast hle
      rw [zpow_neg, zpow_natCast, inv_le_iff_one_le_mul₀ (by positivity), div_mul_eq_mul_div,
        one_le_div₀ hd']
      exact hle'
    dsimp only
    split
    next hle =>
      have h := hlow _ hle
      rw [Nat.cast_sub (hlength _)] at h
      simpa using h
    next =>
      refine hlow _ ?_
      have hq := lt_power_length (d / n)
      have hdiv := Nat.lt_mul_div_succ d hn
      calc d ≤ n * (d / n + 1) := hdiv.le
        _ ≤ n * power 10 (length (d / n)) := Nat.mul_le_mul_left _ hq

-- ============================================================================
-- Multiples of a power of ten
-- ============================================================================

namespace Interval

variable {i : Interval} {p : Int}

/-- A power of ten that is scaled for the comparison with an interval. -/
def unit (i : Interval) (p : Int) : Nat :=
  power 10 p.toNat * power 2 (-i.scale).toNat

/-- A point of an interval that is scaled for the comparison with multiples of a power of ten. -/
def scaled (i : Interval) (p : Int) (w : Nat) : Nat :=
  w * power 2 i.scale.toNat * power 10 (-p).toNat

/-- The factor that both sides of a comparison are scaled by. -/
def factor (i : Interval) (p : Int) : Nat :=
  power 2 (-i.scale).toNat * power 10 (-p).toNat

theorem factor_pos : (0 : ℚ) < i.factor p :=
  Nat.cast_pos.2 (Nat.mul_pos (power_pos (by decide) _) (power_pos (by decide) _))

theorem cast_scaled (w : Nat) : (i.scaled p w : ℚ) = w * 2 ^ i.scale * i.factor p := by
  have h := power_toNat_div (show 0 < 2 by decide) i.scale
  have hpos := cast_power_pos (show 0 < 2 by decide) (-i.scale).toNat
  rw [Nat.cast_ofNat, div_eq_iff hpos.ne'] at h
  rw [scaled, factor]
  push_cast
  rw [h]
  ring

theorem cast_unit : (i.unit p : ℚ) = 10 ^ p * i.factor p := by
  have h := power_toNat_div (show 0 < 10 by decide) p
  have hpos := cast_power_pos (show 0 < 10 by decide) (-p).toNat
  rw [Nat.cast_ofNat, div_eq_iff hpos.ne'] at h
  rw [unit, factor]
  push_cast
  rw [h]
  ring

theorem scaled_lt_iff {w n : Nat} :
    i.scaled p w < n * i.unit p ↔ (w : ℚ) * 2 ^ i.scale < n * 10 ^ p := by
  rw [← Nat.cast_lt (α := ℚ), Nat.cast_mul, cast_scaled, cast_unit, ← mul_assoc,
    mul_lt_mul_iff_left₀ factor_pos]

theorem lt_scaled_iff {w n : Nat} :
    n * i.unit p < i.scaled p w ↔ (n : ℚ) * 10 ^ p < w * 2 ^ i.scale := by
  rw [← Nat.cast_lt (α := ℚ), Nat.cast_mul, cast_scaled, cast_unit, ← mul_assoc,
    mul_lt_mul_iff_left₀ factor_pos]

theorem scaled_eq_iff {w n : Nat} :
    i.scaled p w = n * i.unit p ↔ (w : ℚ) * 2 ^ i.scale = n * 10 ^ p := by
  rw [← Nat.cast_inj (R := ℚ), Nat.cast_mul, cast_scaled, cast_unit, ← mul_assoc,
    mul_left_inj' factor_pos.ne']

theorem below_le (i : Interval) (p : Int) :
    ((i.scaled p i.middle / i.unit p : Nat) : ℚ) * 10 ^ p ≤ i.middle * 2 ^ i.scale := by
  have h := Nat.div_mul_le_self (i.scaled p i.middle) (i.unit p)
  rwa [← not_lt, scaled_lt_iff, not_lt] at h

theorem lt_above (i : Interval) (p : Int) :
    (i.middle : ℚ) * 2 ^ i.scale < (i.scaled p i.middle / i.unit p + 1 : Nat) * 10 ^ p := by
  have hunit : 0 < i.unit p := Nat.mul_pos (power_pos (by decide) _) (power_pos (by decide) _)
  rw [← scaled_lt_iff]
  exact Nat.lt_mul_of_div_lt (Nat.lt_succ_self _) hunit

/-- What `multiple?` finds is one of the neighbours of the middle that fit; it finds nothing only
    if neither of them does. -/
theorem multiple?_cases (tie : Tie) (i : Interval) (p : Int) :
    let below := i.scaled p i.middle / i.unit p
    let belowFits := below ≠ 0 ∧ ((i.low : ℚ) * 2 ^ i.scale < below * 10 ^ p ∨
      i.closed = true ∧ (i.low : ℚ) * 2 ^ i.scale = below * 10 ^ p)
    let aboveFits := (below + 1 : Nat) * (10 : ℚ) ^ p < i.high * 2 ^ i.scale ∨
      i.closed = true ∧ (below + 1 : Nat) * (10 : ℚ) ^ p = i.high * 2 ^ i.scale
    (i.multiple? tie p = some below ∧ belowFits) ∨
      (i.multiple? tie p = some (below + 1) ∧ aboveFits) ∨
      (i.multiple? tie p = none ∧ ¬ belowFits ∧ ¬ aboveFits) := by
  intro below belowFits aboveFits
  have hbelow : belowFits ↔ below ≠ 0 ∧ (i.scaled p i.low < below * i.unit p ∨
      i.closed = true ∧ i.scaled p i.low = below * i.unit p) := by
    rw [scaled_lt_iff, scaled_eq_iff]
  have habove : aboveFits ↔ (below + 1) * i.unit p < i.scaled p i.high ∨
      i.closed = true ∧ (below + 1) * i.unit p = i.scaled p i.high := by
    rw [lt_scaled_iff, eq_comm (a := (below + 1) * i.unit p), scaled_eq_iff,
      eq_comm (b := ((below + 1 : Nat) : ℚ) * 10 ^ p)]
  rw [hbelow, habove]
  simp only [multiple?]
  split
  next hlow =>
    split
    next hhigh =>
      split
      · exact .inl ⟨rfl, hlow⟩
      · exact .inr (.inl ⟨rfl, hhigh⟩)
    next => exact .inl ⟨rfl, hlow⟩
  next hlow =>
    split
    next hhigh => exact .inr (.inl ⟨rfl, hhigh⟩)
    next hhigh => exact .inr (.inr ⟨rfl, hlow, hhigh⟩)

/-- A multiple that is found is in the interval, and is not zero. -/
theorem mem_of_multiple? {tie : Tie} {n : Nat} (hlow : i.low < i.middle)
    (hhigh : i.middle < i.high) (h : i.multiple? tie p = some n) :
    n ≠ 0 ∧ i.Mem (n * 10 ^ p) := by
  have hunit : (0 : ℚ) < 2 ^ i.scale := by positivity
  have hlow' : (i.low : ℚ) * 2 ^ i.scale < i.middle * 2 ^ i.scale :=
    mul_lt_mul_of_pos_right (Nat.cast_lt.2 hlow) hunit
  have hhigh' : (i.middle : ℚ) * 2 ^ i.scale < i.high * 2 ^ i.scale :=
    mul_lt_mul_of_pos_right (Nat.cast_lt.2 hhigh) hunit
  rcases multiple?_cases tie i p with ⟨hsome, hne, hfits⟩ | ⟨hsome, hfits⟩ | ⟨hnone, -⟩
  · rw [h, Option.some.injEq] at hsome
    rw [hsome]
    exact ⟨hne, hfits, .inl ((below_le i p).trans_lt hhigh')⟩
  · rw [h, Option.some.injEq] at hsome
    rw [hsome]
    exact ⟨Nat.succ_ne_zero _, .inl (hlow'.trans (lt_above i p)), hfits⟩
  · rw [h] at hnone
    contradiction

/-- A multiple is found where the multiples are closer to each other than the ends are. -/
theorem exists_multiple? (tie : Tie) (hmiddle : (10 : ℚ) ^ p ≤ i.middle * 2 ^ i.scale)
    (hends : (10 : ℚ) ^ p < (i.high - i.low) * 2 ^ i.scale) :
    ∃ n, i.multiple? tie p = some n := by
  rcases multiple?_cases tie i p with ⟨hsome, -⟩ | ⟨hsome, -⟩ | ⟨-, hlow, hhigh⟩
  · exact ⟨_, hsome⟩
  · exact ⟨_, hsome⟩
  · exfalso
    have hne : i.scaled p i.middle / i.unit p ≠ 0 := by
      intro hzero
      have h := lt_above i p
      rw [hzero, Nat.zero_add, Nat.cast_one, one_mul] at h
      linarith
    have hlow' := not_lt.1 fun h => hlow ⟨hne, .inl h⟩
    have hhigh' := not_lt.1 fun h => hhigh (.inl h)
    push_cast at hhigh'
    linarith

end Interval

-- ============================================================================
-- The shortest numeral
-- ============================================================================

theorem ofDouble_low_lt {x : Double} (hpos : 0 < x.significand) :
    (Interval.ofDouble x).low < (Interval.ofDouble x).middle := by
  simp only [Interval.ofDouble]
  split <;> omega

theorem ofDouble_middle_lt (x : Double) :
    (Interval.ofDouble x).middle < (Interval.ofDouble x).high := by
  simp only [Interval.ofDouble]
  omega

/-- Seventeen digits tell the ends of the interval of a double apart. -/
theorem middle_lt_ends (x : Double) :
    (Interval.ofDouble x).middle + 10 ^ 16 * (Interval.ofDouble x).low <
      10 ^ 16 * (Interval.ofDouble x).high := by
  have hlt := x.significand_lt
  have hcount : Double.fractionCount = 4503599627370496 := rfl
  simp only [Interval.ofDouble]
  by_cases h : x.significand = Double.fractionCount ∧ 1 < x.exponentField
  · rw [if_pos h]
    omega
  · rw [if_neg h]
    omega

theorem stripped_mem {i : Interval} {p : Int} {n : Nat} (hne : n ≠ 0) (h : i.Mem (n * 10 ^ p)) :
    (stripZeros mostDigits n).1 ≠ 0 ∧
      i.Mem ((stripZeros mostDigits n).1 * 10 ^ (p + (stripZeros mostDigits n).2)) := by
  have hstrip := eq_stripZeros_mul_power mostDigits n
  constructor
  · intro hzero
    rw [hzero, Nat.zero_mul] at hstrip
    exact hne hstrip
  · have hvalue : ((stripZeros mostDigits n).1 : ℚ) * 10 ^ (p + (stripZeros mostDigits n).2) =
        n * 10 ^ p := by
      conv_rhs => rw [hstrip]
      rw [zpow_add₀ (by norm_num), zpow_natCast, power, Nat.cast_mul, Nat.pow_eq, Nat.cast_pow]
      push_cast
      ring
    rwa [hvalue]

/-- The numeral that an interval has on the grid of a power of ten, if it has one. -/
def Interval.numeral? (tie : Tie) (i : Interval) (p : Int) : Option Numeral :=
  (i.multiple? tie p).map fun n =>
    ⟨(stripZeros mostDigits n).1, p + (stripZeros mostDigits n).2⟩

theorem mem_of_numeral? {tie : Tie} {i : Interval} {p : Int} {r : Numeral}
    (hlow : i.low < i.middle) (hhigh : i.middle < i.high) (h : i.numeral? tie p = some r) :
    r.digits ≠ 0 ∧ i.Mem (r.digits * 10 ^ r.exponent) := by
  obtain ⟨n, hn, rfl⟩ := Option.map_eq_some_iff.1 h
  obtain ⟨hne, hmem⟩ := Interval.mem_of_multiple? hlow hhigh hn
  exact stripped_mem hne hmem

/-- The exponent of the leading digit of a double. -/
def leading (x : Double) : Int :=
  leadingExponent ((Interval.ofDouble x).middle * power 2 (Interval.ofDouble x).scale.toNat)
    (power 2 (-(Interval.ofDouble x).scale).toNat)

theorem leading_le {x : Double} (hpos : 0 < x.significand) :
    (10 : ℚ) ^ leading x ≤ (Interval.ofDouble x).middle * 2 ^ (Interval.ofDouble x).scale := by
  have hmiddle := Nat.zero_lt_of_lt (ofDouble_low_lt hpos)
  have hle := leadingExponent_le
    (Nat.mul_pos hmiddle (power_pos (show 0 < 2 by decide) (Interval.ofDouble x).scale.toNat))
    (power_pos (show 0 < 2 by decide) (-(Interval.ofDouble x).scale).toNat)
  rw [Nat.cast_mul, mul_div_assoc, power_toNat_div (by decide), Nat.cast_ofNat] at hle
  exact hle

/-- With seventeen digits, a double has a numeral. -/
theorem exists_numeral? (tie : Tie) {x : Double} (hpos : 0 < x.significand) :
    ∃ r, (Interval.ofDouble x).numeral? tie (leading x - (16 : Nat)) = some r := by
  have hvalue := leading_le hpos
  have hends := middle_lt_ends x
  generalize Interval.ofDouble x = i at *
  have hunit : (0 : ℚ) < 2 ^ i.scale := by positivity
  have hfine : (10 : ℚ) ^ (leading x - (16 : Nat)) * 10 ^ 16 ≤ i.middle * 2 ^ i.scale := by
    rw [← zpow_natCast, ← zpow_add₀ (by norm_num), sub_add_cancel]
    exact hvalue
  have hpow : (0 : ℚ) < 10 ^ (leading x - (16 : Nat)) := by positivity
  have hlength : (i.middle : ℚ) * 2 ^ i.scale < 10 ^ 16 * ((i.high - i.low) * 2 ^ i.scale) := by
    have hlt : (i.middle : ℚ) + 10 ^ 16 * i.low < 10 ^ 16 * i.high := by exact_mod_cast hends
    rw [← mul_assoc]
    exact mul_lt_mul_of_pos_right (by linarith) hunit
  obtain ⟨n, hn⟩ := Interval.exists_multiple? (i := i) tie (by linarith) (by linarith)
  exact ⟨_, Option.map_eq_some_iff.2 ⟨n, hn, rfl⟩⟩

/-- The shortest numeral of a double is not zero and lies among the reals that round to the
    double. -/
theorem shortest_mem (tie : Tie) {x : Double} (hpos : 0 < x.significand) :
    (shortest tie x).digits ≠ 0 ∧ (Interval.ofDouble x).Mem
      ((shortest tie x).digits * 10 ^ (shortest tie x).exponent) := by
  have hshortest : shortest tie x = ((List.range mostDigits).findSome? fun k : Nat =>
      (Interval.ofDouble x).numeral? tie (leading x - k)).getD ⟨0, 0⟩ := rfl
  rw [hshortest]
  cases hfound : (List.range mostDigits).findSome? fun k : Nat =>
      (Interval.ofDouble x).numeral? tie (leading x - k) with
  | some r =>
    obtain ⟨k, -, hr⟩ := List.exists_of_findSome?_eq_some hfound
    exact mem_of_numeral? (ofDouble_low_lt hpos) (ofDouble_middle_lt x) hr
  | none =>
    exfalso
    obtain ⟨r, hr⟩ := exists_numeral? tie hpos
    have hnone := List.findSome?_eq_none_iff.1 hfound 16 (List.mem_range.2 (by decide))
    rw [hr] at hnone
    contradiction

end VersionedStore.Decimal
