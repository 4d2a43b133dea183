/-
  VersionedStore.Value

  Values of fields: flat data of five types.  Two values are the same if their
  types and contents are (`=`), and agree (`agrees`) if floats are compared by
  value instead.  Values of different types never agree.
-/
import VersionedStore.Double.Basic

namespace VersionedStore

/-- The value of one field. -/
inductive Value where
  | null
  | bool (b : Bool)
  | int (n : Int64)
  | float (x : Double)
  | string (s : String)
deriving DecidableEq, Repr, Inhabited

namespace Value

/-- The name of the type of integers, as messages show it. -/
def intType : String := "Int"

/-- The name of the type of floats, as messages show it. -/
def floatType : String := "Float"

/-- The name of the type of strings, as messages show it. -/
def stringType : String := "String"

/-- The name of a value's type, as messages show it. -/
def typeName : Value → String
  | null => "Null"
  | bool _ => "Bool"
  | int _ => intType
  | float _ => floatType
  | string _ => stringType

/-- Whether the value is null. -/
def isNull : Value → Bool
  | null => true
  | _ => false

/-- The truth value, if it is one. -/
def bool? : Value → Option Bool
  | bool b => some b
  | _ => none

/-- The integer, if it is one; floats are not converted. -/
def int? : Value → Option Int64
  | int n => some n
  | _ => none

/-- The float, if it is one; integers are not converted. -/
def float? : Value → Option Double
  | float x => some x
  | _ => none

/-- The string, if it is one. -/
def string? : Value → Option String
  | string s => some s
  | _ => none

/-- Equality in which floats are compared by value. -/
def agrees : Value → Value → Bool
  | float x, float y => x.agrees y
  | v, w => v == w

theorem int?_eq_some_iff {v : Value} {n : Int64} : v.int? = some n ↔ v = int n := by
  cases v <;> simp [int?]

theorem isNull_iff {v : Value} : v.isNull = true ↔ v = null := by
  cases v <;> simp [isNull]

end Value

end VersionedStore
