/-
  VersionedStore.Scenario

  What the command line offers: each scenario seeds a database with the sample
  products and reports on them as JSON.  Products are picked by their place among
  the samples, counted from one.
-/
import VersionedStore.Json.Printer
import VersionedStore.Simulation
import VersionedStore.Storm

namespace VersionedStore

/-- A scenario with its parameters. -/
inductive Scenario where
  /-- Seed, and show the products. -/
  | seed
  /-- Race writers on a product. -/
  | simulate (product writers : Nat)
  /-- Have workers add to the stock of a product. -/
  | storm (product writers rounds : Nat) (delta : Int64)
deriving DecidableEq, Repr

namespace Scenario

/-- Why a scenario fails. -/
inductive Error where
  | failure (cause : Failure)
  | productOutOfRange (product count : Nat)
  /-- The record was removed while the scenario ran. -/
  | vanished (id : RecordId)
deriving DecidableEq

/-- The wording of an error. -/
def Error.message : Error → String
  | failure cause => cause.message
  | productOutOfRange product count =>
    "product must be between 1 and " ++ toString count ++ ", got " ++ toString product
  | vanished id => "record " ++ id.text ++ " vanished"

/-- What a scenario does: it may touch the surroundings, and it may fail. -/
abbrev Play (σ α : Type) := ExceptT Error (StateM σ) α

variable {σ : Type}

/-- An operation of the database within a scenario. -/
def act {α : Type} (action : Action σ α) : Play σ α :=
  ExceptT.adapt Error.failure action

/-- A record seen as a product. -/
def product (r : Record) : Except Error Product :=
  match Product.ofRecord r with
  | .ok p => .ok p
  | .error reason => .error (.failure (.validation (some r.id) reason))

/-- The record at a place, counted from one. -/
def pick (records : List Record) (place : Nat) : Except Error Record :=
  match place with
  | 0 => .error (.productOutOfRange 0 records.length)
  | i + 1 =>
    match records[i]? with
    | some r => .ok r
    | none => .error (.productOutOfRange place records.length)

/-- Seed, and show the products. -/
def runSeed (db : Database σ) : Play σ Json := do
  let records ← act db.seedCatalog
  let products ← (records.mapM product : Except Error (List Product))
  return .array (products.map Product.toJson)

/-- Race writers on a product. -/
def runSimulate (db : Database σ) (place writers : Nat) : Play σ Simulation.Report := do
  let records ← act db.seedCatalog
  let target ← pick records place
  act (Simulation.run db target.id writers)

/-- Have workers add to the stock of a product. -/
def runStorm (db : Database σ) (place writers rounds : Nat) (delta : Int64) :
    Play σ Storm.Report := do
  let records ← act db.seedCatalog
  let target ← pick records place
  let before ← product target
  let task : Storm.Task := ⟨target.id, delta⟩
  let total ← Storm.run db task writers rounds
  match ← act (db.get target.id) with
  | none => throw (.vanished target.id)
  | some r =>
    let after ← product r
    return .of before after task total

/-- Run a scenario, and give its report. -/
def run (db : Database σ) : Scenario → Play σ Json
  | seed => runSeed db
  | simulate place writers => Simulation.Report.toJson <$> runSimulate db place writers
  | storm place writers rounds delta =>
    Storm.Report.toJson <$> runStorm db place writers rounds delta

end Scenario

end VersionedStore
