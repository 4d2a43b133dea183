/-
  VersionedStore.Decimal.Layout

  How a double is written out.  A `Layout` says for which leading exponents the
  numeral is positional; outside of them it has one digit before the point and
  a signed exponent.  A positional numeral always shows a point.  The layout
  also settles which of two equally good numerals is shown.

  `fixed` writes a given number of places instead, rounding the exact value and
  sending ties to the even last digit.
-/
import VersionedStore.Decimal.Shortest
import VersionedStore.Double.Round

namespace VersionedStore.Decimal

/-- The leading exponents of positional numerals, with no bound on a side if it is `none`,
    and the choice between two shortest numerals at the same distance. -/
structure Layout where
  least : Option Int
  greatest : Option Int
  tie : Tie
deriving DecidableEq, Repr

namespace Layout

/-- Positional from `0.00001` up to below `10 ^ 16`, with ties to the even digit. -/
def compact : Layout := ⟨some (-5), some 15, .even⟩

/-- Positional whatever the size of the number, with ties away from zero. -/
def positional : Layout := ⟨none, none, .up⟩

/-- Whether a number with this leading exponent is written positionally. -/
def isPositional (layout : Layout) (e : Int) : Bool :=
  layout.least.all (· ≤ e) && layout.greatest.all (e ≤ ·)

end Layout

/-- The sign in front of a numeral. -/
def sign (negative : Bool) : List Char :=
  if negative then ['-'] else []

/-- Digits around the point, the first of them worth `10 ^ e`. -/
def positionalText (ds : List Char) (e : Int) : List Char :=
  if e < 0 then ['0', '.'] ++ List.replicate (-e - 1).toNat '0' ++ ds
  else
    let whole := e.toNat + 1
    if ds.length ≤ whole then ds ++ List.replicate (whole - ds.length) '0' ++ ['.', '0']
    else ds.take whole ++ ['.'] ++ ds.drop whole

/-- Digits with the point after the first one, and the exponent `e` with its sign. -/
def exponentText (ds : List Char) (e : Int) : List Char :=
  ds.take 1 ++ (if ds.length ≤ 1 then [] else '.' :: ds.drop 1)
    ++ ['e', if e < 0 then '-' else '+'] ++ digits e.natAbs

/-- A double in its shortest form. -/
def text (layout : Layout) (x : Double) : String :=
  if x.isNaN then "NaN"
  else String.ofList <| sign x.isNegative ++
    if !x.isFinite then ['i', 'n', 'f']
    else if x.isZero then ['0', '.', '0']
    else
      let n := shortest layout.tie x
      let ds := digits n.digits
      let e := n.exponent + ds.length - 1
      if layout.isPositional e then positionalText ds e else exponentText ds e

/-- A double with exactly this many digits after the point. -/
def fixed (places : Nat) (x : Double) : String :=
  if x.isNaN then "NaN"
  else String.ofList <| sign x.isNegative ++
    if !x.isFinite then ['i', 'n', 'f']
    else
      let n := roundHalfEven (x.significand * power 2 x.scale.toNat * power 10 places)
        (power 2 (-x.scale).toNat)
      let ds := padded (places + 1) n
      let whole := ds.length - places
      ds.take whole ++ (if places = 0 then [] else '.' :: ds.drop whole)

example : text .compact ⟨0x43f0000000000000⟩ = "1.8446744073709552e+19" := by decide +kernel
example : text .positional (Double.ofDecimal true 112589990684262425 (-2)) =
    "-1125899906842624.3" := by decide +kernel
example : fixed 2 (Double.ofDecimal false 125 (-3)) = "0.12" := by decide +kernel

end VersionedStore.Decimal
