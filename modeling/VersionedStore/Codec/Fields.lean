/-
  VersionedStore.Codec.Fields

  Values, fields, ids and versions as JSON.  A value is written by its content
  alone; the reader tells its type from the form, and takes an integer that does
  not fit as a float.
-/
import VersionedStore.Document.Decode
import VersionedStore.Double.Round
import VersionedStore.Fields
import VersionedStore.Identity
import VersionedStore.Json.Basic

namespace VersionedStore

namespace Value

/-- The value as JSON; a float that is not finite is written as null. -/
def toJson : Value → Json
  | null => .null
  | bool b => .bool b
  | int n => .integer n.toInt
  | float x => Json.ofDouble x
  | string s => .string s

/-- The value that a document stands for. -/
def ofDocument (d : Document) : Decoded Value :=
  if !d.isWhole then .error .malformed
  else
    match d with
    | .null => .ok null
    | .bool b => .ok (bool b)
    | .integer n =>
      match int64? n with
      | some n => .ok (int n)
      | none => .ok (float (Double.ofInt n))
    | .float x => .ok (float x)
    | .string s => .ok (string s)
    | _ => .error (.noVariant "Value")

end Value

namespace Fields

/-- The fields as a JSON object. -/
def toJson (fs : Fields) : Json :=
  .object (fs.toList.map fun (name, v) => (name, v.toJson))

/-- The fields that a document stands for. -/
def ofDocument (d : Document) : Decoded Fields := do
  let l ← d.mapOf Value.ofDocument
  return ofList l

end Fields

namespace RecordId

/-- The number of the id. -/
def toJson (id : RecordId) : Json :=
  .ofNat id.raw.toNat

/-- The id that a document stands for. -/
def ofDocument (d : Document) : Decoded RecordId := do
  return ⟨← d.uint64⟩

end RecordId

namespace Version

/-- The number of the token. -/
def toJson (v : Version) : Json :=
  .ofNat v.raw.toNat

/-- The token that a document stands for. -/
def ofDocument (d : Document) : Decoded Version := do
  return ⟨← d.uint64⟩

end Version

end VersionedStore
