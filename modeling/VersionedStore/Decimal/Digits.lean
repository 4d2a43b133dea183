/-
  VersionedStore.Decimal.Digits

  Decimal numerals of natural numbers.  `value` reads a string of digits from
  the most significant one; `digits?` refuses anything that is not a non-empty
  string of ASCII digits.  What readers of numbers are reasoned about with is
  that a string of digits is worth its parts (`value_append`).
-/
import VersionedStore.Power

namespace VersionedStore.Decimal

/-- Whether a character is one of the ten ASCII digits. -/
def isDigit (c : Char) : Bool :=
  '0'.toNat ≤ c.toNat && c.toNat ≤ '9'.toNat

/-- The number that an ASCII digit stands for. -/
def digitValue (c : Char) : Nat :=
  c.toNat - '0'.toNat

/-- The number that a string of digits stands for. -/
def value (cs : List Char) : Nat :=
  cs.foldl (fun n c => 10 * n + digitValue c) 0

/-- The number written by a non-empty string of digits, leading zeros allowed. -/
def digits? (cs : List Char) : Option Nat :=
  if cs ≠ [] ∧ cs.all isDigit then some (value cs) else none

/-- The digits in front of a text, and the rest of it. -/
def run (cs : List Char) : List Char × List Char :=
  (cs.takeWhile isDigit, cs.dropWhile isDigit)

/-- The digits of a number, most significant first. -/
def digits (n : Nat) : List Char :=
  Nat.toDigits 10 n

/-- How many decimal digits a number has; zero has one. -/
def length (n : Nat) : Nat :=
  (digits n).length

/-- The digits of a number, with zeros in front up to a width. -/
def padded (width n : Nat) : List Char :=
  List.replicate (width - length n) '0' ++ digits n

/-- A number and how many zeros its numeral ends in, without those zeros.  At most
    `fuel` of them are removed. -/
def stripZeros : Nat → Nat → Nat × Nat
  | 0, n => (n, 0)
  | fuel + 1, n =>
    if n ≠ 0 ∧ n % 10 = 0 then
      let r := stripZeros fuel (n / 10)
      (r.1, r.2 + 1)
    else (n, 0)

-- ============================================================================
-- Laws
-- ============================================================================

theorem value_append (cs ds : List Char) :
    value (cs ++ ds) = value cs * power 10 ds.length + value ds := by
  have h : ∀ (n : Nat) (ds : List Char),
      ds.foldl (fun n c => 10 * n + digitValue c) n = n * power 10 ds.length + value ds := by
    intro n ds
    induction ds generalizing n with
    | nil => simp [value]
    | cons d ds ih =>
      have hd : value (d :: ds) = digitValue d * power 10 ds.length + value ds := by
        rw [value, List.foldl_cons, ih]
        simp
      rw [List.foldl_cons, ih, hd, List.length_cons, power_succ]
      grind
  rw [value, List.foldl_append, h, ← value]

/-- Removing trailing zeros keeps the number, up to the power of ten that it counts. -/
theorem eq_stripZeros_mul_power (fuel n : Nat) :
    n = (stripZeros fuel n).1 * power 10 (stripZeros fuel n).2 := by
  induction fuel generalizing n with
  | zero => simp [stripZeros]
  | succ fuel ih =>
    rw [stripZeros]
    split
    next h =>
      have := ih (n / 10)
      simp only [power_succ, ← Nat.mul_assoc]
      omega
    next => simp

theorem digits?_eq_some_iff {cs : List Char} {n : Nat} :
    digits? cs = some n ↔ cs ≠ [] ∧ (∀ c ∈ cs, isDigit c = true) ∧ value cs = n := by
  unfold digits?
  split
  next h =>
    obtain ⟨hne, hall⟩ := h
    rw [Option.some.injEq]
    exact ⟨fun hn => ⟨hne, List.all_eq_true.1 hall, hn⟩, fun hn => hn.2.2⟩
  next h =>
    constructor
    · intro hn
      contradiction
    · intro hn
      exact absurd ⟨hn.1, List.all_eq_true.2 hn.2.1⟩ h

end VersionedStore.Decimal
