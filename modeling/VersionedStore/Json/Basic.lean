/-
  VersionedStore.Json.Basic

  JSON values as they are written: integers and floats are told apart, and the
  members of an object have an order.  Floats are finite; `ofDouble` writes an
  infinity or a NaN as null.
-/
import VersionedStore.Double.Basic

namespace VersionedStore

/-- A JSON value. -/
inductive Json where
  | null
  | bool (b : Bool)
  | integer (n : Int)
  | float (x : Double)
  | string (s : String)
  | array (items : List Json)
  | object (members : List (String × Json))
deriving Repr, Inhabited

namespace Json

/-- A double, or null if it is not finite. -/
def ofDouble (x : Double) : Json :=
  if x.isFinite then .float x else .null

/-- A value that may be missing, which is written as null. -/
def ofOption {α : Type} (f : α → Json) : Option α → Json
  | some a => f a
  | none => .null

/-- An unsigned number. -/
def ofNat (n : Nat) : Json :=
  .integer n

end Json

end VersionedStore
