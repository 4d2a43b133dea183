/-
  VersionedStore.Decimal.Shortest

  The shortest decimal numeral that reads back as a given double.

  A double stands for every real number that rounds to it: an interval around
  its value, with its ends if and only if the significand is even.  On the grid
  of multiples of a power of ten only the two neighbours of the value have to be
  tested.  The coarsest grid with a neighbour in the interval gives the fewest
  digits; of two neighbours the nearer one is taken.  At equal distance both are
  right, and a `Tie` says which one is meant.
-/
import VersionedStore.Decimal.Digits
import VersionedStore.Double.Basic

namespace VersionedStore.Decimal

/-- The number `digits * 10 ^ exponent`. -/
structure Numeral where
  digits : Nat
  exponent : Int
deriving DecidableEq, Repr

/-- The exponent `e` with `10 ^ e ≤ n / d < 10 ^ (e + 1)`, for positive `n` and `d`. -/
def leadingExponent (n d : Nat) : Int :=
  if d ≤ n then (length (n / d) : Int) - 1
  else
    let l := length (d / n)
    if d ≤ n * power 10 (l - 1) then 1 - (l : Int) else -(l : Int)

/-- The choice between two neighbours at the same distance. -/
inductive Tie where
  /-- The neighbour with an even last digit. -/
  | even
  /-- The neighbour that is further from zero. -/
  | up
deriving DecidableEq, Repr

/-- Whether the lower one of two neighbours at the same distance is taken. -/
def Tie.takesLower : Tie → (lower : Nat) → Bool
  | even, lower => lower % 2 == 0
  | up, _ => false

/-- The reals that round to one double, scaled to quarters of its unit: the value is
    `middle * 2 ^ scale`, and the ends are given in the same way. -/
structure Interval where
  low : Nat
  middle : Nat
  high : Nat
  scale : Int
  closed : Bool

/-- The interval of a finite double.  Below a power of two the grid of doubles is twice
    as fine, so the lower half of the interval is half as long there. -/
def Interval.ofDouble (x : Double) : Interval :=
  let m := x.significand
  { low := 4 * m - (if m = Double.fractionCount ∧ 1 < x.exponentField then 1 else 2)
    middle := 4 * m
    high := 4 * m + 2
    scale := x.scale - 2
    closed := m % 2 == 0 }

/-- The multiple of `10 ^ p` in the interval that is nearest to the middle, if there is one. -/
def Interval.multiple? (tie : Tie) (i : Interval) (p : Int) : Option Nat :=
  let unit := power 10 p.toNat * power 2 (-i.scale).toNat
  let scaled (w : Nat) := w * power 2 i.scale.toNat * power 10 (-p).toNat
  let below := scaled i.middle / unit
  let above := below + 1
  let belowFits := below ≠ 0 ∧
    (scaled i.low < below * unit ∨ i.closed ∧ scaled i.low = below * unit)
  let aboveFits := above * unit < scaled i.high ∨ i.closed ∧ above * unit = scaled i.high
  if belowFits then
    if aboveFits then
      let toBelow := scaled i.middle - below * unit
      let toAbove := above * unit - scaled i.middle
      if toBelow < toAbove ∨ toBelow = toAbove ∧ tie.takesLower below then some below
      else some above
    else some below
  else if aboveFits then some above else none

/-- The most digits that a double ever needs. -/
def mostDigits : Nat := 17

/-- The shortest numeral of a finite double that is not zero. -/
def shortest (tie : Tie) (x : Double) : Numeral :=
  let i := Interval.ofDouble x
  let e := leadingExponent (i.middle * power 2 i.scale.toNat) (power 2 (-i.scale).toNat)
  let grid (k : Nat) : Option Numeral :=
    (i.multiple? tie (e - k)).map fun n =>
      let r := stripZeros mostDigits n
      ⟨r.1, e - k + r.2⟩
  ((List.range mostDigits).findSome? grid).getD ⟨0, 0⟩

example : shortest .even ⟨0x403dfd70a3d70a3d⟩ = ⟨2999, -2⟩ := by decide +kernel
example : shortest .even ⟨0x3e60000000000000⟩ = ⟨29802322387695312, -24⟩ := by decide +kernel
example : shortest .up ⟨0x3e60000000000000⟩ = ⟨29802322387695313, -24⟩ := by decide +kernel

end VersionedStore.Decimal
