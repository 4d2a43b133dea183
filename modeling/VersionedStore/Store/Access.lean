/-
  VersionedStore.Store.Access

  What a client sees of a store of records.  A write or a removal names the
  version that it was worked out from.  That the record has moved on, or is not
  there, is an answer and no error; errors are failures of the store itself.

  `RecordStore σ` is a store whose state, and whatever else its calls may touch,
  is a `σ`.
-/
import VersionedStore.Record

namespace VersionedStore

/-- A failure of the store itself. -/
inductive StoreError where
  | unavailable (reason : String)
  | corruption (reason : String)
  /-- A counter has no numbers left. -/
  | exhausted (counter : String)
deriving DecidableEq, Repr

/-- The wording of a failure. -/
def StoreError.message : StoreError → String
  | .unavailable reason => "store unavailable: " ++ reason
  | .corruption reason => "store corruption: " ++ reason
  | .exhausted counter => counter ++ " counter exhausted"

/-- The answer to a write or a removal. -/
inductive WriteOutcome where
  /-- It took place; the record is the one written or the one removed. -/
  | committed (record : Record)
  /-- The record has moved on from the version that was named. -/
  | versionMismatch (current : Record)
  | notFound
deriving DecidableEq

namespace WriteOutcome

def isCommitted : WriteOutcome → Bool
  | committed _ => true
  | _ => false

def isVersionMismatch : WriteOutcome → Bool
  | versionMismatch _ => true
  | _ => false

def isNotFound : WriteOutcome → Bool
  | notFound => true
  | _ => false

/-- The record that the answer carries. -/
def record? : WriteOutcome → Option Record
  | committed r | versionMismatch r => some r
  | notFound => none

end WriteOutcome

/-- The calls of a store with state `σ`. -/
structure RecordStore (σ : Type) where
  read : RecordId → StateM σ (Except StoreError (Option Record))
  create : Fields → StateM σ (Except StoreError Record)
  write : RecordId → Version → Fields → StateM σ (Except StoreError WriteOutcome)
  delete : RecordId → Version → StateM σ (Except StoreError WriteOutcome)
  list : StateM σ (Except StoreError (List Record))

end VersionedStore
