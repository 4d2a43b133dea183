/-
  VersionedStore.Toml.Number

  Numbers of TOML.  Digits may be grouped by single underscores.  An integer has
  to fit 64 bits with a sign; a decimal integer has no leading zeros, and one in
  another base no sign.  A float has decimals or an exponent, or is `inf` or
  `nan`; one that is too large above zero is refused.
-/
import VersionedStore.Document.Basic
import VersionedStore.Double.Round
import VersionedStore.Text.Numeral
import VersionedStore.Toml.Space
import VersionedStore.Word

namespace VersionedStore.Toml

/-- Digits and single underscores before digits; the underscores are dropped. -/
def groupedDigits (base : Nat) : List Char → List Char × List Char
  | [] => ([], [])
  | [c] => if Text.isDigitOf base c then ([c], []) else ([], [c])
  | c :: d :: cs =>
    if Text.isDigitOf base c || (c == '_' && Text.isDigitOf base d) then
      let r := groupedDigits base (d :: cs)
      (if c = '_' then r.1 else c :: r.1, r.2)
    else ([], c :: d :: cs)

/-- Grouped digits that start with a digit. -/
def digits (base : Nat) : Part (List Char) := fun cs =>
  if cs.head?.any (Text.isDigitOf base) then some (groupedDigits base cs) else none

/-- Whether a minus sign is in front, and the text after the sign. -/
def signed : List Char → Bool × List Char
  | '-' :: cs => (true, cs)
  | '+' :: cs => (false, cs)
  | cs => (false, cs)

/-- The digits of a decimal number before the point: one zero, or no zero in front. -/
def wholeDigits : Part (List Char) := fun cs => do
  let (ds, cs) ← digits 10 cs
  if ds.head? = some '0' ∧ ds.length ≠ 1 then none else some (ds, cs)

-- ============================================================================
-- Integers
-- ============================================================================

/-- An integer that fits 64 bits. -/
def fitting (n : Int) (rest : List Char) : Option (Document × List Char) :=
  (int64? n).map fun _ => (.integer n, rest)

/-- The digits of an integer after the mark of its base. -/
def integerOf (base : Nat) : Part Document := fun cs => do
  let (ds, cs) ← digits base cs
  let n ← Text.numeral? base ds
  fitting n cs

/-- An integer. -/
def integer : Part Document
  | '0' :: 'x' :: cs => integerOf 16 cs
  | '0' :: 'o' :: cs => integerOf 8 cs
  | '0' :: 'b' :: cs => integerOf 2 cs
  | cs => do
    let (negative, cs) := signed cs
    let (ds, cs) ← wholeDigits cs
    let n : Int := Decimal.value ds
    fitting (if negative then -n else n) cs

-- ============================================================================
-- Floats
-- ============================================================================

/-- The exponent of a float. -/
def exponent : Part Int
  | 'e' :: cs | 'E' :: cs => do
    let (negative, cs) := signed cs
    let (ds, cs) ← digits 10 cs
    let n : Int := Decimal.value ds
    some (if negative then -n else n, cs)
  | _ => none

/-- The decimals of a float after its point. -/
def decimals : Part (List Char)
  | '.' :: cs => digits 10 cs
  | _ => none

/-- A float in decimal notation without its sign. -/
def decimalFloat (negative : Bool) : Part Document := fun cs => do
  let (whole, cs) ← wholeDigits cs
  let (fraction, e, cs) ←
    match exponent cs with
    | some (e, cs) => some ([], e, cs)
    | none => do
      let (fraction, cs) ← decimals cs
      match exponent cs with
      | some (e, cs) => some (fraction, e, cs)
      | none => some (fraction, 0, cs)
  let x := Double.ofDecimal negative (Decimal.value (whole ++ fraction)) (e - fraction.length)
  if x = Double.infinity false then none else some (.float x, cs)

/-- A float. -/
def float : Part Document := fun cs =>
  match signed cs with
  | (negative, 'i' :: 'n' :: 'f' :: cs) => some (.float (Double.infinity negative), cs)
  | (_, 'n' :: 'a' :: 'n' :: cs) => some (.float Double.nan, cs)
  | (negative, cs) => decimalFloat negative cs

example : (integer "-1_000,".toList).map (·.2) = some [','] := by decide +kernel
example : (integer "9223372036854775808".toList).isNone := by decide +kernel
example : (float "6.25e-1_0".toList).isSome ∧ (float "1".toList).isNone := by decide +kernel

end VersionedStore.Toml
