/-
  VersionedStore.Double.Round

  The double nearest to an exact number, ties going to the even significand.
  `ofRatio` rounds a quotient of natural numbers; integers, sums of doubles and
  decimal numerals are all rounded through it, so each is rounded exactly once.
-/
import VersionedStore.Double.Basic
import VersionedStore.Power

namespace VersionedStore

/-- The integer nearest to `n / d`, a tie going to the even one. -/
def roundHalfEven (n d : Nat) : Nat :=
  let q := n / d
  let r := n % d
  if 2 * r < d then q
  else if d < 2 * r then q + 1
  else q + q % 2

namespace Double

/-- The exponent `e` with `2 ^ e ≤ n / d < 2 ^ (e + 1)`, for positive `n` and `d`. -/
def binaryExponent (n d : Nat) : Int :=
  let k : Int := (Nat.log2 n : Int) - Nat.log2 d
  if d * power 2 k.toNat ≤ n * power 2 (-k).toNat then k else k - 1

/-- The double nearest to `± n / d`, for a positive `d`; an infinity if that lies beyond
    the largest finite one. -/
def ofRatio (negative : Bool) (n d : Nat) : Double :=
  if n = 0 then ofMagnitude negative 0
  else
    let q := max (binaryExponent n d - 52) (-1074)
    let m := roundHalfEven (n * power 2 (-q).toNat) (d * power 2 q.toNat)
    -- A significand that was rounded up to `2 ^ 53` carries into the exponent.
    let magnitude := (q + 1074).toNat * fractionCount + m
    ofMagnitude negative (min magnitude infinityMagnitude)

/-- The double nearest to an integer. -/
def ofInt (n : Int) : Double :=
  ofRatio (decide (n < 0)) n.natAbs 1

/-- The double nearest to `± n * 2 ^ e`. -/
def ofBinary (negative : Bool) (n : Nat) (e : Int) : Double :=
  ofRatio negative (n * power 2 e.toNat) (power 2 (-e).toNat)

/-- The sum of two doubles, rounded once. -/
def add (x y : Double) : Double :=
  if x.isNaN || y.isNaN then nan
  else if !x.isFinite then
    if y.isFinite || x == y then x else nan
  else if !y.isFinite then y
  else
    let e := min x.scale y.scale
    let part (z : Double) : Int :=
      cond z.isNegative (-1) 1 * (z.significand * power 2 (z.scale - e).toNat : Nat)
    let sum := part x + part y
    if sum = 0 then ofMagnitude (x.isNegative && y.isNegative) 0
    else ofBinary (decide (sum < 0)) sum.natAbs e

/-- The double nearest to `± n * 10 ^ e`.  Far outside the range of the doubles the
    answer is known without working the power out. -/
def ofDecimal (negative : Bool) (n : Nat) (e : Int) : Double :=
  if n = 0 then ofMagnitude negative 0
  else if 400 < e then infinity negative
  else if e + (Nat.log2 n / 3 + 2 : Nat) < -330 then ofMagnitude negative 0
  else ofRatio negative (n * power 10 e.toNat) (power 10 (-e).toNat)

example : ofInt 9007199254740993 = ofInt 9007199254740992 := by decide +kernel
example : ofDecimal false 5 (-324) = ⟨1⟩ ∧ ofDecimal false 24 (-325) = ⟨0⟩ := by decide +kernel
example : add (ofInt 1) (ofInt (-1)) = ⟨0⟩ := by decide +kernel

end Double

end VersionedStore
