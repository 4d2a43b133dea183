/-
  VersionedStore.Proofs.Decimal.Numerals

  The decimal numeral of a number reads back as the number, and so does a numeral
  with zeros in front.  Its length says between which powers of ten the number lies,
  and no numeral but that of zero starts with a zero.
-/
import Mathlib.Algebra.Group.Nat.Defs
import VersionedStore.Decimal.Digits

namespace VersionedStore.Decimal

/-- A non-empty string of ASCII digits. -/
def IsNumeral (ds : List Char) : Prop :=
  ds ≠ [] ∧ ∀ c ∈ ds, isDigit c = true

theorem value_digits (n : Nat) : value (digits n) = n :=
  Nat.ofDigitChars_ten_toDigits

theorem isDigit_of_mem_digits {c : Char} {n : Nat} (h : c ∈ digits n) : isDigit c = true := by
  have hdigit := Nat.isDigit_of_mem_toDigits (by decide) (by decide) h
  simpa [isDigit, Char.isDigit, Char.le_def, UInt32.le_iff_toNat_le] using hdigit

theorem isNumeral_digits (n : Nat) : IsNumeral (digits n) :=
  ⟨Nat.toDigits_ne_nil, fun _ => isDigit_of_mem_digits⟩

theorem digits?_eq_some_iff_isNumeral {cs : List Char} {n : Nat} :
    digits? cs = some n ↔ IsNumeral cs ∧ value cs = n := by
  rw [digits?_eq_some_iff, IsNumeral, and_assoc]

/-- A run of digits ends where the digits do. -/
theorem run_append {ds rest : List Char} (hds : ∀ c ∈ ds, isDigit c = true)
    (hrest : ∀ c ∈ rest.head?, isDigit c = false) : run (ds ++ rest) = (ds, rest) := by
  rw [run, List.takeWhile_append_of_pos hds, List.dropWhile_append_of_pos hds]
  cases rest with
  | nil => rw [List.takeWhile_nil, List.dropWhile_nil, List.append_nil]
  | cons c rest => simp [hrest c rfl]

theorem run_append_right {rest : List Char} (hrest : ∀ c ∈ rest.head?, isDigit c = false)
    (cs : List Char) : run (cs ++ rest) = ((run cs).1, (run cs).2 ++ rest) := by
  induction cs with
  | nil => exact run_append (by simp) hrest
  | cons c cs ih =>
    obtain ⟨hdigits, hafter⟩ := Prod.mk.inj ih
    by_cases hc : isDigit c = true
    · simp [run, hc, hdigits, hafter]
    · simp [run, hc]

-- ============================================================================
-- Zeros around a numeral
-- ============================================================================

theorem value_zeros (k : Nat) : value (List.replicate k '0') = 0 := by
  induction k with
  | zero => rfl
  | succ k ih =>
    rw [List.replicate_succ', value_append, ih, Nat.zero_mul]
    rfl

theorem value_zeros_append (k : Nat) (ds : List Char) :
    value (List.replicate k '0' ++ ds) = value ds := by
  rw [value_append, value_zeros, Nat.zero_mul, Nat.zero_add]

theorem value_append_zeros (ds : List Char) (k : Nat) :
    value (ds ++ List.replicate k '0') = value ds * power 10 k := by
  rw [value_append, value_zeros, List.length_replicate, Nat.add_zero]

theorem isNumeral_append_left {ds es : List Char} (hds : IsNumeral ds)
    (hes : ∀ c ∈ es, isDigit c = true) : IsNumeral (ds ++ es) := by
  refine ⟨List.append_ne_nil_of_left_ne_nil hds.1 es, fun c hc => ?_⟩
  exact (List.mem_append.1 hc).elim (hds.2 c) (hes c)

theorem isNumeral_append_right {ds es : List Char} (hds : ∀ c ∈ ds, isDigit c = true)
    (hes : IsNumeral es) : IsNumeral (ds ++ es) := by
  refine ⟨List.append_ne_nil_of_right_ne_nil ds hes.1, fun c hc => ?_⟩
  exact (List.mem_append.1 hc).elim (hds c) (hes.2 c)

theorem isDigit_of_mem_zeros {c : Char} {k : Nat} (h : c ∈ List.replicate k '0') :
    isDigit c = true := by
  rw [List.eq_of_mem_replicate h]
  rfl

-- ============================================================================
-- The length of a numeral
-- ============================================================================

theorem lt_power_length (n : Nat) : n < 10 ^ length n :=
  (Nat.length_toDigits_le_iff (by decide) Nat.length_toDigits_pos).1 (Nat.le_refl _)

theorem power_length_le {n : Nat} (h : n ≠ 0) : 10 ^ (length n - 1) ≤ n := by
  refine Nat.le_of_not_lt fun hlt => ?_
  rcases Nat.eq_zero_or_pos (length n - 1) with hzero | hpos
  · rw [hzero, Nat.pow_zero] at hlt
    omega
  · have hle : length n ≤ length n - 1 :=
      (Nat.length_toDigits_le_iff (by decide) hpos).2 hlt
    omega

theorem value_lt {ds : List Char} (h : ∀ c ∈ ds, isDigit c = true) :
    value ds < 10 ^ ds.length := by
  induction ds with
  | nil => decide
  | cons d ds ih =>
    have hd := h d (List.mem_cons_self ..)
    have hvalue : digitValue d ≤ 9 := by
      simp only [isDigit, Bool.and_eq_true, decide_eq_true_eq] at hd
      have hnine : '9'.toNat = 57 := rfl
      have hzero : '0'.toNat = 48 := rfl
      rw [digitValue]
      omega
    have ih := ih fun c hc => h c (List.mem_cons_of_mem d hc)
    have hsplit : value (d :: ds) = digitValue d * power 10 ds.length + value ds := by
      rw [← List.singleton_append, value_append]
      simp [value]
    have hmul := Nat.mul_le_mul_right (power 10 ds.length) hvalue
    have hpow : power 10 ds.length = 10 ^ ds.length := rfl
    rw [hsplit, List.length_cons, Nat.pow_succ]
    omega

/-- The numeral of a number that is not zero starts with another digit. -/
theorem head?_digits {n : Nat} (h : n ≠ 0) : (digits n).head? ≠ some '0' := by
  intro hhead
  obtain ⟨ds, hds⟩ := List.head?_eq_some_iff.1 hhead
  have hvalue : value ds = n := by
    rw [← value_digits n, hds]
    exact (value_zeros_append 1 ds).symm
  have hlt : value ds < 10 ^ ds.length :=
    value_lt fun c hc => isDigit_of_mem_digits (n := n) (hds ▸ List.mem_cons_of_mem _ hc)
  have hle := power_length_le h
  rw [length, hds, List.length_cons, Nat.add_sub_cancel] at hle
  omega

-- ============================================================================
-- Numerals of a given width
-- ============================================================================

theorem value_padded (width n : Nat) : value (padded width n) = n := by
  rw [padded, value_zeros_append, value_digits]

theorem isNumeral_padded (width n : Nat) : IsNumeral (padded width n) :=
  isNumeral_append_right (fun _ => isDigit_of_mem_zeros) (isNumeral_digits n)

theorem length_padded {width n : Nat} (hwidth : 0 < width) (h : n < 10 ^ width) :
    (padded width n).length = width := by
  have hlength : length n ≤ width := (Nat.length_toDigits_le_iff (by decide) hwidth).2 h
  rw [padded, List.length_append, List.length_replicate, ← length]
  omega

end VersionedStore.Decimal
