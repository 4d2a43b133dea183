/-
  VersionedStore.Constraints

  What fields have to satisfy: required fields, which must be there and not
  null, and minimums of integer fields, which may also be absent or null.

  `validate` looks at the required fields first, in the order in which they were
  required, then at the minimums in the order of their names, and reports the
  first that fails.
-/
import Std.Data.ExtTreeMap
import VersionedStore.Fields
import VersionedStore.Violation

namespace VersionedStore

/-- Conditions on fields. -/
structure Constraints where
  /-- The least integer of each field, both ends of the range included. -/
  minimums : Std.ExtTreeMap String Int64
  /-- Names of fields that must be there. -/
  required : List String
deriving DecidableEq

namespace Constraints

instance : EmptyCollection Constraints := ⟨⟨∅, []⟩⟩

instance : Inhabited Constraints := ⟨∅⟩

/-- Set the minimum of a field; the last one counts. -/
def min (c : Constraints) (field : String) (least : Int64) : Constraints :=
  { c with minimums := c.minimums.insert field least }

/-- Require a field, unless it is required already. -/
def require (c : Constraints) (field : String) : Constraints :=
  if field ∈ c.required then c else { c with required := c.required ++ [field] }

/-- The minimum of a field, if it has one. -/
def minimum? (c : Constraints) (field : String) : Option Int64 :=
  c.minimums[field]?

/-- Whether there is nothing to satisfy. -/
def isEmpty (c : Constraints) : Bool :=
  c.minimums.isEmpty && c.required.isEmpty

/-- Whether a required field is there. -/
def isPresent (fields : Fields) (field : String) : Bool :=
  (fields.get? field).any fun v => !v.isNull

/-- How a field breaks its minimum, if it does. -/
def belowMinimum? (fields : Fields) (field : String) (least : Int64) : Option Violation :=
  match fields.get? field with
  | none | some .null => none
  | some (.int n) =>
    if n.toInt < least.toInt then some (.belowMinimum field n least) else none
  | some v => some (.wrongType field Value.intType v.typeName)

/-- The first condition that fields break, if any. -/
def violation? (c : Constraints) (fields : Fields) : Option Violation :=
  match c.required.find? fun field => !isPresent fields field with
  | some field => some (.missingField field)
  | none => c.minimums.toList.findSome? fun (field, least) => belowMinimum? fields field least

/-- Accept fields, or report the first condition that they break. -/
def validate (c : Constraints) (fields : Fields) : Except Violation Unit :=
  match c.violation? fields with
  | none => .ok ()
  | some v => .error v

end Constraints

end VersionedStore
