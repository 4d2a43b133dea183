/-
  VersionedStore.Json.Number

  The numbers of a JSON text.

  A numeral is a sign, a whole part without superfluous zeros, decimals and an
  exponent.  Without decimals and exponent it stands for an integer, as long as 64
  bits hold it, and else for a float.

  What is written for a float, and which float a numeral is worth, is settled by a
  `FloatCodec`.  That texts read back asks no more of it than `FloatCodec.Lawful`,
  whatever it makes of numerals that nothing was written as.
-/
import VersionedStore.Decimal.Layout
import VersionedStore.Document.Basic
import VersionedStore.Word

namespace VersionedStore.Json

/-- A number of a JSON text by its parts. -/
structure Numeral where
  negative : Bool
  whole : List Char
  decimals : Option (List Char)
  exponent : Option Int
deriving DecidableEq, Repr

namespace Numeral

/-- Whether a numeral has neither decimals nor an exponent. -/
def isInteger (n : Numeral) : Bool :=
  n.decimals.isNone && n.exponent.isNone

-- ============================================================================
-- Reading
-- ============================================================================

/-- The whole part of a number: one zero, or digits that start with another. -/
def wholePart (cs : List Char) : Option (List Char × List Char) :=
  match Decimal.run cs with
  | ([], _) => none
  | ('0' :: _ :: _, _) => none
  | r => some r

/-- The decimals of a number after the point, if there is one. -/
def decimalPart : List Char → Option (Option (List Char) × List Char)
  | '.' :: cs =>
    match Decimal.run cs with
    | ([], _) => none
    | (ds, rest) => some (some ds, rest)
  | cs => some (none, cs)

/-- The digits of an exponent, with the sign that stands before them. -/
def signedDigits (sign : Int) (cs : List Char) : Option (Option Int × List Char) :=
  match Decimal.run cs with
  | ([], _) => none
  | (ds, rest) => some (some (sign * Decimal.value ds), rest)

/-- The exponent of a number, if there is one. -/
def exponentPart : List Char → Option (Option Int × List Char)
  | 'e' :: '-' :: cs | 'E' :: '-' :: cs => signedDigits (-1) cs
  | 'e' :: '+' :: cs | 'E' :: '+' :: cs => signedDigits 1 cs
  | 'e' :: cs | 'E' :: cs => signedDigits 1 cs
  | cs => some (none, cs)

/-- The numeral at the start of a text, and the rest of the text. -/
def read (cs : List Char) : Option (Numeral × List Char) := do
  let negative := cs.head? = some '-'
  let (whole, cs) ← wholePart (if negative then cs.drop 1 else cs)
  let (decimals, cs) ← decimalPart cs
  let (exponent, cs) ← exponentPart cs
  some (⟨negative, whole, decimals, exponent⟩, cs)

end Numeral

-- ============================================================================
-- Floats
-- ============================================================================

/-- What is written for a finite float, and which float a numeral is worth. -/
class FloatCodec where
  text : Double → List Char
  value : Numeral → Double

namespace FloatCodec

/-- The shortest numeral of a float, and the float that is nearest to a numeral. -/
instance nearest : FloatCodec where
  text x := (Decimal.text .compact x).toList
  value n :=
    let decimals := n.decimals.getD []
    Double.ofDecimal n.negative (Decimal.value (n.whole ++ decimals))
      (n.exponent.getD 0 - decimals.length)

/-- A text is a numeral with decimals or an exponent, and is worth a float. -/
def Spells [FloatCodec] (cs : List Char) (x : Double) : Prop :=
  ∃ n : Numeral, Numeral.read cs = some (n, []) ∧ n.isInteger = false ∧ value n = x

/-- What is written for a finite float spells it. -/
def Lawful [FloatCodec] : Prop :=
  ∀ x : Double, x.isFinite = true → Spells (text x) x

end FloatCodec

-- ============================================================================
-- Documents
-- ============================================================================

/-- A double, if it is finite. -/
def finite (x : Double) : Document :=
  if x.isFinite then .float x else .unusable

/-- The document of a numeral: an integer if 64 bits with or without sign hold it, else a
    float.  Minus zero is a float, and so is a negative integer whose magnitude alone 64 bits
    hold, which is rounded to a float as an integer. -/
def Numeral.document [FloatCodec] (n : Numeral) : Document :=
  let m := Decimal.value n.whole
  if !n.isInteger || (uint64? m).isNone then finite (FloatCodec.value n)
  else if !n.negative then .integer m
  else if m = 0 then .float (Double.ofMagnitude true 0)
  else if (int64? (-m)).isSome then .integer (-m)
  else .float (Double.ofInt (-m))

end VersionedStore.Json
