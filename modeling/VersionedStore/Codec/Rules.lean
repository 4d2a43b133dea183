/-
  VersionedStore.Codec.Rules

  Violations, constraints and retry policies as JSON.  A policy holds its wait
  in whole milliseconds.
-/
import VersionedStore.Codec.Fields
import VersionedStore.Constraints
import VersionedStore.Update.Policy

namespace VersionedStore

/-- The violation as a JSON object with its kind. -/
def Violation.toJson : Violation → Json
  | .belowMinimum field value minimum =>
    .object [("kind", .string "below_minimum"), ("field", .string field),
      ("value", .integer value.toInt), ("minimum", .integer minimum.toInt)]
  | .missingField field => .object [("kind", .string "missing_field"), ("field", .string field)]
  | .wrongType field expected actual =>
    .object [("kind", .string "wrong_type"), ("field", .string field),
      ("expected", .string expected), ("actual", .string actual)]
  | .overflow field delta =>
    .object [("kind", .string "overflow"), ("field", .string field),
      ("delta", .integer delta.toInt)]

/-- Integers by name as a JSON object. -/
def minimumsToJson (m : Std.ExtTreeMap String Int64) : Json :=
  .object (m.toList.map fun (name, n) => (name, .integer n.toInt))

/-- Integers by name; the last one of a name counts. -/
def minimumsOfDocument (d : Document) : Decoded (Std.ExtTreeMap String Int64) := do
  let l ← d.mapOf Document.int64
  return .ofList l

/-- Names as a JSON array. -/
def namesToJson (names : List String) : Json :=
  .array (names.map .string)

namespace Constraints

/-- The constraints as a JSON object. -/
def toJson (c : Constraints) : Json :=
  .object [("minimums", minimumsToJson c.minimums), ("required", namesToJson c.required)]

/-- How constraints are read; both parts may be left out. -/
def shape : Shape Constraints where
  name := "Constraints"
  strict := false
  fields := [
    .of "minimums" minimumsOfDocument (fun minimums c => { c with minimums }) true,
    .of "required" (Document.listOf Document.text) (fun required c => { c with required }) true]

/-- The constraints that a document stands for. -/
def ofDocument (d : Document) : Decoded Constraints :=
  shape.read .malformed ∅ d

end Constraints

namespace Update.RetryPolicy

/-- The policy as a JSON object. -/
def toJson (p : RetryPolicy) : Json :=
  .object [("max_attempts", .ofNat p.maxAttempts.toNat),
    ("backoff", .ofNat p.backoff.wholeMillis.toNat)]

/-- The parts of a policy that have been read so far. -/
structure Parts where
  maxAttempts : Option UInt32
  backoff : Duration

/-- How a policy is read; the wait may be left out. -/
def shape : Shape Parts where
  name := "RetryPolicy"
  strict := false
  fields := [
    .of "max_attempts" Document.uint32 (fun n p => { p with maxAttempts := some n }) false,
    .of "backoff" Document.uint64 (fun n p => { p with backoff := .ofMillis n }) true]

/-- The policy that a document stands for. -/
def ofDocument (d : Document) : Decoded RetryPolicy := do
  let p ← shape.read .malformed ⟨none, .zero⟩ d
  return { maxAttempts := ← required "max_attempts" p.maxAttempts, backoff := p.backoff }

end Update.RetryPolicy

end VersionedStore
