/-
  VersionedStore.Text.Numeral

  Numerals in a base of up to sixteen.  They are written in lower case and read
  in either case.
-/
import VersionedStore.Decimal.Digits

namespace VersionedStore.Text

/-- The digits of a number in base sixteen, lower case. -/
def hexDigits (n : Nat) : List Char :=
  Nat.toDigits 16 n

/-- The number that a digit of a base stands for. -/
def digitValue? (base : Nat) (c : Char) : Option Nat :=
  let n? :=
    if Decimal.isDigit c then some (Decimal.digitValue c)
    else if 'a' ≤ c ∧ c ≤ 'f' then some (c.toNat - 'a'.toNat + 10)
    else if 'A' ≤ c ∧ c ≤ 'F' then some (c.toNat - 'A'.toNat + 10)
    else none
  n?.filter (· < base)

/-- Whether a character is a digit of a base. -/
def isDigitOf (base : Nat) (c : Char) : Bool :=
  (digitValue? base c).isSome

/-- The number that digits of a base stand for; zero if there are none. -/
def numeral? (base : Nat) (cs : List Char) : Option Nat :=
  cs.foldlM (fun n c => (digitValue? base c).map (base * n + ·)) 0

example : numeral? 16 ['1', 'F'] = some 31 := by decide +kernel
example : numeral? 2 ['1', '0', '2'] = none := by decide +kernel

end VersionedStore.Text
