/-
  VersionedStore.Codec.Update

  The outcomes of update requests as JSON.
-/
import VersionedStore.Codec.Record
import VersionedStore.Codec.Rules
import VersionedStore.Update.Outcome

namespace VersionedStore.Update

/-- The commit as a JSON object. -/
def Committed.toJson (c : Committed) : Json :=
  .object [("record", c.record.toJson), ("attempts", .ofNat c.attempts)]

namespace ConflictReport

/-- The members of a report. -/
def members (r : ConflictReport) : List (String × Json) :=
  [("id", r.id.toJson), ("expected", r.expected.toJson), ("current", r.current.toJson),
    ("attempts", .ofNat r.attempts)]

/-- The report as a JSON object. -/
def toJson (r : ConflictReport) : Json :=
  .object r.members

end ConflictReport

/-- The error as a JSON object with its kind; the members of a report stand beside it. -/
def UpdateError.toJson : UpdateError → Json
  | .notFound id => .object [("error", .string "not_found"), ("id", id.toJson)]
  | .versionConflict r => .object (("error", .string "version_conflict") :: r.members)
  | .retryExhausted r => .object (("error", .string "retry_exhausted") :: r.members)
  | .validationFailed id reason =>
    .object [("error", .string "validation_failed"), ("id", id.toJson), ("reason", reason.toJson)]
  | .cancelled id attempts reason =>
    .object [("error", .string "cancelled"), ("id", id.toJson), ("attempts", .ofNat attempts),
      ("reason", .string reason.name)]
  | .storage source =>
    .object [("error", .string "storage"), ("source", .string source.message)]

end VersionedStore.Update
