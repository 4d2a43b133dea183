/-
  VersionedStore.Double.Basic

  IEEE 754 binary64 numbers by their bits.  A number is told from another by its
  bits (`=`), and compared by its value (`agrees`): a zero agrees with the other
  zero, and a NaN with nothing.

  A finite number is `± significand * 2 ^ scale`, with the significand below
  `2 ^ 53` and the scale at least `-1074`.
-/

namespace VersionedStore

/-- A binary64 number. -/
structure Double where
  /-- The sixty-four bits: sign, eleven of exponent, fifty-two of fraction. -/
  bits : UInt64
deriving DecidableEq, Repr

namespace Double

/-- How many fractions there are: the weight of the lowest bit of the exponent. -/
def fractionCount : Nat := 0x10000000000000

/-- The weight of the sign bit. -/
def signWeight : Nat := 0x8000000000000000

/-- Whether the sign bit is set. -/
def isNegative (x : Double) : Bool :=
  x.bits.toNat / signWeight == 1

/-- The biased exponent. -/
def exponentField (x : Double) : Nat :=
  x.bits.toNat / fractionCount % 2048

/-- The bits of the significand that are stored. -/
def fraction (x : Double) : Nat :=
  x.bits.toNat % fractionCount

/-- Whether the number is neither an infinity nor a NaN. -/
def isFinite (x : Double) : Bool :=
  x.exponentField != 2047

/-- Whether the bits stand for no number. -/
def isNaN (x : Double) : Bool :=
  x.exponentField == 2047 && x.fraction != 0

/-- Whether the number is a zero of either sign. -/
def isZero (x : Double) : Bool :=
  x.exponentField == 0 && x.fraction == 0

/-- The significand of a finite number as an integer. -/
def significand (x : Double) : Nat :=
  if x.exponentField = 0 then x.fraction else fractionCount + x.fraction

/-- The power of two that the significand of a finite number is scaled by. -/
def scale (x : Double) : Int :=
  max x.exponentField 1 - 1075

/-- The number with this sign and these lower sixty-three bits. -/
def ofMagnitude (negative : Bool) (magnitude : Nat) : Double :=
  ⟨UInt64.ofNat (cond negative signWeight 0 + magnitude)⟩

/-- The bits of an infinity, without the sign. -/
def infinityMagnitude : Nat := 2047 * fractionCount

/-- The infinity of a sign. -/
def infinity (negative : Bool) : Double :=
  ofMagnitude negative infinityMagnitude

/-- A quiet NaN. -/
def nan : Double :=
  ofMagnitude false (infinityMagnitude + fractionCount / 2)

/-- Equality of values: both zeros agree, and a NaN agrees with nothing. -/
def agrees (x y : Double) : Bool :=
  !x.isNaN && !y.isNaN && (x == y || (x.isZero && y.isZero))

example : Double.agrees ⟨0⟩ ⟨0x8000000000000000⟩ = true := by decide
example : (infinity true).isFinite = false ∧ (infinity true).isNaN = false := by decide

end Double

end VersionedStore
