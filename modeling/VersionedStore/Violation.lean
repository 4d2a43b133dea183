/-
  VersionedStore.Violation

  Why fields are refused: a change that cannot be applied to them, or a
  constraint that they break.
-/

namespace VersionedStore

/-- Why fields are refused. -/
inductive Violation where
  /-- An integer field is below its minimum. -/
  | belowMinimum (field : String) (value minimum : Int64)
  /-- A field that is needed is absent, or null where that counts as absent. -/
  | missingField (field : String)
  /-- A field holds a value of another type. -/
  | wrongType (field : String) (expected actual : String)
  /-- A sum leaves the range of integers. -/
  | overflow (field : String) (delta : Int64)
deriving DecidableEq, Repr

/-- The wording of a violation. -/
def Violation.message : Violation → String
  | .belowMinimum field value minimum =>
    "field '" ++ field ++ "' would be " ++ toString value.toInt ++ ", below minimum "
      ++ toString minimum.toInt
  | .missingField field => "field '" ++ field ++ "' is required"
  | .wrongType field expected actual =>
    "field '" ++ field ++ "' is " ++ actual ++ ", expected " ++ expected
  | .overflow field delta =>
    "adjusting field '" ++ field ++ "' by " ++ toString delta.toInt ++ " overflows"

end VersionedStore
