/-
  VersionedStore.Update.Outcome

  How an update request ends.  Only a commit has written anything; every
  conflict carries the state that the record is in now, so that the caller can
  look again and decide.
-/
import VersionedStore.Store.Access
import VersionedStore.Update.Guard
import VersionedStore.Violation

namespace VersionedStore.Update

/-- A request that was written. -/
structure Committed where
  record : Record
  /-- Writes issued, the successful one included. -/
  attempts : Nat
deriving DecidableEq

/-- What a request ran into when the record had moved on. -/
structure ConflictReport where
  id : RecordId
  /-- The version that was presented. -/
  expected : Version
  /-- The state that the record was in instead. -/
  current : Record
  attempts : Nat
deriving DecidableEq

/-- Why a request was not written. -/
inductive UpdateError where
  | notFound (id : RecordId)
  /-- The caller's version is not the record's. -/
  | versionConflict (report : ConflictReport)
  /-- Every attempt that was allowed lost its race. -/
  | retryExhausted (report : ConflictReport)
  | validationFailed (id : RecordId) (reason : Violation)
  | cancelled (id : RecordId) (attempts : Nat) (reason : CancelReason)
  | storage (source : StoreError)
deriving DecidableEq

/-- What a request comes to. -/
abbrev Result := Except UpdateError Committed

namespace UpdateError

/-- The wording of an error. -/
def message : UpdateError → String
  | notFound id => "record " ++ id.text ++ " not found"
  | versionConflict r =>
    "record " ++ r.id.text ++ " was modified (expected version " ++ r.expected.text
      ++ ", current " ++ r.current.version.text ++ "); refresh and retry"
  | retryExhausted r =>
    "record " ++ r.id.text ++ " still contended after " ++ toString r.attempts
      ++ " attempts (current version " ++ r.current.version.text ++ ")"
  | validationFailed id reason => "record " ++ id.text ++ ": " ++ reason.message
  | cancelled id attempts reason =>
    "update of record " ++ id.text ++ " abandoned after " ++ toString attempts ++ " attempts: "
      ++ reason.message
  | storage source => "storage failure: " ++ source.message

/-- The report of a conflict, if the error is one. -/
def conflict? : UpdateError → Option ConflictReport
  | versionConflict r | retryExhausted r => some r
  | _ => none

/-- Whether the record had moved on. -/
def isConflict (e : UpdateError) : Bool :=
  e.conflict?.isSome

/-- Whether trying again from a fresh look may help: exactly after a conflict. -/
def isRetryable (e : UpdateError) : Bool :=
  e.isConflict

/-- Whether the record was not there. -/
def isNotFound : UpdateError → Bool
  | notFound _ => true
  | _ => false

/-- The state that the record is in now, if the error is a conflict. -/
def current? (e : UpdateError) : Option Record :=
  e.conflict?.map (·.current)

end UpdateError

end VersionedStore.Update
