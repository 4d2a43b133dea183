/-
  VersionedStore.Change

  Changes to the fields of a record.

  A *snapshot* change gives new values, all of them (`replace`) or some
  (`patch`); it was worked out from a state that its author has seen, so it must
  not be applied to another.  A *relative* change (`adjust`) adds to an integer
  and means the same on whatever state it meets, so it may be tried again.
-/
import VersionedStore.Fields
import VersionedStore.Violation
import VersionedStore.Word

namespace VersionedStore

/-- An amount to add to an integer field. -/
structure Adjustment where
  field : String
  delta : Int64
deriving DecidableEq, Repr

/-- The kinds of changes. -/
inductive Mode where
  | replace
  | patch
  | adjust
deriving DecidableEq, Repr

/-- A change to the fields of a record. -/
inductive Change where
  | replace (fields : Fields)
  | patch (fields : Fields)
  | adjust (adjustment : Adjustment)
deriving DecidableEq

/-- The sum of two integers, if it is in the range of integers. -/
def sum? (a b : Int64) : Option Int64 :=
  int64? (a.toInt + b.toInt)

/-- The sum is the exact one, and is there exactly if that is in range. -/
theorem sum?_eq_some_iff {a b c : Int64} : sum? a b = some c ↔ a.toInt + b.toInt = c.toInt := by
  rw [sum?, int64?_eq_some_iff, eq_comm]

/-- There is no sum exactly if the exact one is out of range. -/
theorem sum?_eq_none_iff {a b : Int64} :
    sum? a b = none ↔ a.toInt + b.toInt < Int64.minValue.toInt ∨
      Int64.maxValue.toInt < a.toInt + b.toInt :=
  int64?_eq_none_iff

namespace Mode

/-- The names of the modes. -/
def name : Mode → String
  | replace => "replace"
  | patch => "patch"
  | adjust => "adjust"

/-- The modes in the order in which messages list them. -/
def all : List Mode := [replace, patch, adjust]

/-- The mode of a name. -/
def ofName? (s : String) : Option Mode :=
  all.find? (·.name = s)

theorem ofName?_name (m : Mode) : ofName? m.name = some m := by
  cases m <;> decide

end Mode

/-- Add to an integer field. -/
def Adjustment.apply (a : Adjustment) (current : Fields) : Except Violation Fields :=
  match current.get? a.field with
  | none => .error (.missingField a.field)
  | some (.int n) =>
    match sum? n a.delta with
    | some m => .ok (current.insert a.field (.int m))
    | none => .error (.overflow a.field a.delta)
  | some v => .error (.wrongType a.field Value.intType v.typeName)

namespace Change

/-- The kind of a change. -/
def mode : Change → Mode
  | replace _ => .replace
  | patch _ => .patch
  | adjust _ => .adjust

/-- Whether the change may be tried again on another state. -/
def isRetryable : Change → Bool
  | adjust _ => true
  | replace _ | patch _ => false

/-- The fields that a change makes of the current ones. -/
def apply : Change → Fields → Except Violation Fields
  | replace fields, _ => .ok fields
  | patch fields, current => .ok (current.merge fields)
  | adjust a, current => a.apply current

end Change

end VersionedStore
