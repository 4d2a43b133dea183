/-
  VersionedStore.Failure

  Why an operation of a database fails.  A conflict carries the state that the
  record is in now, so that the caller can show it and submit again.
-/
import VersionedStore.Config.Basic
import VersionedStore.Update.Outcome

namespace VersionedStore

open Update

/-- Why a file could not be read as text. -/
inductive FileError where
  | absent
  | notText
  /-- A failure that the operating system words itself. -/
  | other (message : String)
deriving DecidableEq, Repr

/-- The wording of a failure to read a file. -/
def FileError.message : FileError → String
  | absent => "No such file or directory (os error 2)"
  | notText => "stream did not contain valid UTF-8"
  | other message => message

/-- Why an operation of a database fails. -/
inductive Failure where
  | notFound (id : RecordId)
  /-- The caller's version is not the record's. -/
  | conflict (report : ConflictReport)
  /-- Every attempt that was allowed lost its race. -/
  | retryExhausted (report : ConflictReport)
  /-- Fields are refused; the record is missing if it was about to be created. -/
  | validation (id : Option RecordId) (reason : Violation)
  | cancelled (attempts : Nat) (reason : CancelReason)
  | storage (source : StoreError)
  | config (error : ConfigError)
  | file (error : FileError)
deriving DecidableEq

namespace Failure

/-- The wording of a failure. -/
def message : Failure → String
  | notFound id => "not found: record " ++ id.text
  | conflict r =>
    "conflict: record " ++ r.id.text ++ " changed (expected version " ++ r.expected.text
      ++ ", current " ++ r.current.version.text ++ ")"
  | retryExhausted r =>
    "conflict: record " ++ r.id.text ++ " still contended after " ++ toString r.attempts
      ++ " attempts"
  | validation _ reason => "validation failed: " ++ reason.message
  | cancelled attempts reason =>
    "cancelled after " ++ toString attempts ++ " attempts: " ++ reason.message
  | storage source => "storage error: " ++ source.message
  | config error => "config error: " ++ error.message
  | file error => "I/O error: " ++ error.message

/-- The report of a conflict, if the failure is one. -/
def conflict? : Failure → Option ConflictReport
  | conflict r | retryExhausted r => some r
  | _ => none

/-- Whether the record had moved on. -/
def isConflict (f : Failure) : Bool :=
  f.conflict?.isSome

/-- Whether trying again from a fresh look may help: exactly after a conflict. -/
def isRetryable (f : Failure) : Bool :=
  f.isConflict

/-- Whether the record was not there. -/
def isNotFound : Failure → Bool
  | notFound _ => true
  | _ => false

/-- Whether fields were refused. -/
def isValidation : Failure → Bool
  | validation _ _ => true
  | _ => false

/-- The state that the record is in now, if the failure is a conflict. -/
def current? (f : Failure) : Option Record :=
  f.conflict?.map (·.current)

/-- The failure that the end of an update request amounts to. -/
def ofUpdateError : UpdateError → Failure
  | .notFound id => notFound id
  | .versionConflict r => conflict r
  | .retryExhausted r => retryExhausted r
  | .validationFailed id reason => validation (some id) reason
  | .cancelled _ attempts reason => cancelled attempts reason
  | .storage source => storage source

end Failure

end VersionedStore
