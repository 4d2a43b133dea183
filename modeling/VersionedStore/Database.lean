/-
  VersionedStore.Database

  The database: operations on a store of records under fixed rules.  Fields are
  checked before they are written, by a creation just as by an update, and a
  refused creation does not reach the store.

  A `Database σ` is a handle; all that changes is in the `σ` that its
  surroundings act on, so handles that are equal share their records.
-/
import VersionedStore.Config.Setting
import VersionedStore.Config.Source
import VersionedStore.World

namespace VersionedStore

open Update

/-- What an operation does: it may touch the surroundings, and it may fail. -/
abbrev Action (σ α : Type) := ExceptT Failure (StateM σ) α

/-- A handle on a database whose surroundings act on a `σ`. -/
structure Database (σ : Type) where
  rules : Rules
  around : Surroundings σ

namespace Database

variable {σ : Type}

/-- Open a database, if its configuration is acceptable. -/
def ofConfig (c : Config) (around : Surroundings σ) : Except Failure (Database σ) :=
  match c.validate with
  | .ok c => .ok ⟨c.rules, around⟩
  | .error error => .error (.config error)

/-- A call of the store; its failures are failures of the operation. -/
def call {α : Type} (act : StateM σ (Except StoreError α)) : Action σ α :=
  ExceptT.adapt Failure.storage (ExceptT.mk act)

/-- Create a record, if its fields are acceptable. -/
def create (db : Database σ) (fields : Fields) : Action σ Record :=
  match db.rules.constraints.validate fields with
  | .ok () => call (db.around.store.create fields)
  | .error reason => throw (.validation none reason)

/-- Look a record up. -/
def get (db : Database σ) (id : RecordId) : Action σ (Option Record) :=
  call (db.around.store.read id)

/-- All records in the order of their ids. -/
def list (db : Database σ) : Action σ (List Record) :=
  call db.around.store.list

/-- Run an update request. -/
def execute (db : Database σ) (request : Request) : Action σ Committed :=
  ExceptT.adapt Failure.ofUpdateError (ExceptT.mk (request.run db.rules db.around))

/-- Make a change that was worked out from a version. -/
def update (db : Database σ) (id : RecordId) (expected : Version) (change : Change) :
    Action σ Committed :=
  db.execute (.new id expected change)

/-- Replace all fields of a record. -/
def replace (db : Database σ) (id : RecordId) (expected : Version) (fields : Fields) :
    Action σ Committed :=
  db.execute (.replace id expected fields)

/-- Set some fields of a record. -/
def patch (db : Database σ) (id : RecordId) (expected : Version) (fields : Fields) :
    Action σ Committed :=
  db.execute (.patch id expected fields)

/-- Add to an integer field of a record. -/
def adjust (db : Database σ) (id : RecordId) (field : String) (delta : Int64) :
    Action σ Committed :=
  db.execute (.adjust id field delta)

/-- Remove a record that is still at the expected version. -/
def delete (db : Database σ) (id : RecordId) (expected : Version) : Action σ Record :=
  ExceptT.adapt Failure.ofUpdateError (ExceptT.mk (remove db.around id expected))

/-- Create the sample products.  Those created before one that fails stay. -/
def seedCatalog (db : Database σ) : Action σ (List Record) :=
  Catalog.samples.mapM db.create

/-- The number of records and the retry policy. -/
def text (db : Database σ) (store : Store) : String :=
  "Database \x7b records: " ++ toString store.size ++ ", policy: " ++ db.rules.policy.text
    ++ " \x7d"

end Database

end VersionedStore
