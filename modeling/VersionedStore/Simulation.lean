/-
  VersionedStore.Simulation

  Writers that race for one record.  Each reads the record, waits until all have
  read it, and then sets the price to the base price plus its own number, on
  condition that the record is still the one it has read.

      reading --read--> ready --(all are ready)--> updating --...--> done

  `Writer.step` is one step of one writer; in which order writers take their
  steps is left open by it.  `Simulation.run` lets them read one after the other
  and then update one after the other.
-/
import VersionedStore.Database
import VersionedStore.Decimal.Layout

namespace VersionedStore.Simulation

open Update

/-- What became of a writer. -/
inductive Status where
  | success
  /-- Another writer was first. -/
  | conflict
  /-- The record is gone. -/
  | notFound
deriving DecidableEq, Repr

/-- The name of a status. -/
def Status.name : Status → String
  | .success => "success"
  | .conflict => "conflict"
  | .notFound => "not_found"

/-- What one writer saw. -/
structure Sighting where
  writer : Nat
  status : Status
  detail : String
deriving DecidableEq, Repr

/-- What all writers saw, in the order of their numbers. -/
structure Report where
  id : RecordId
  successes : Nat
  conflicts : Nat
  details : List Sighting
deriving DecidableEq, Repr

/-- The report on a record and what the writers saw. -/
def Report.of (id : RecordId) (details : List Sighting) : Report :=
  ⟨id, details.countP (·.status = .success), details.countP (·.status = .conflict), details⟩

-- ============================================================================
-- One writer
-- ============================================================================

/-- What the writers race for. -/
structure Race where
  id : RecordId
  basePrice : Double

/-- The price that a writer sets. -/
def Race.price (race : Race) (writer : Nat) : Double :=
  Double.add race.basePrice (Double.ofInt writer)

/-- The request of a writer that has read a record. -/
def Race.request (race : Race) (writer : Nat) (seen : Record) : Request :=
  .patch race.id seen.version ((∅ : Fields).insert Catalog.priceField (.float (race.price writer)))

/-- Where a writer stands. -/
inductive Stage where
  /-- About to read the record. -/
  | reading
  /-- Has read, or failed to, and waits for the others. -/
  | ready (seen : Except StoreError (Option Record))
  /-- Has a request under way. -/
  | updating (request : Request) (phase : Phase)
  | done (outcome : Except Failure Sighting)

/-- A writer with its number. -/
structure Writer where
  number : Nat
  stage : Stage

/-- How the end of a writer's request is reported.  Only conflicts and the loss of the record
    are part of the game. -/
def Race.sighting (race : Race) (writer : Nat) : Result → Except Failure Sighting
  | .ok _ =>
    .ok ⟨writer, .success, "price updated to " ++ Decimal.fixed 2 (race.price writer)⟩
  | .error e =>
    let failure := Failure.ofUpdateError e
    if failure.isConflict then .ok ⟨writer, .conflict, failure.message⟩
    else if failure.isNotFound then .ok ⟨writer, .notFound, "record not found"⟩
    else .error failure

/-- What a writer goes on with once all have read. -/
def Race.start (race : Race) (writer : Nat) : Except StoreError (Option Record) → Stage
  | .error e => .done (.error (.storage e))
  | .ok none => .done (.ok ⟨writer, .notFound, "record not found"⟩)
  | .ok (some seen) => .updating (race.request writer seen) .entering

/-- The stage that follows an observation of a writer's request. -/
def Race.proceed (race : Race) (writer : Nat) (request : Request) (phase : Phase) : Stage :=
  match phase.result? with
  | some result => .done (race.sighting writer result)
  | none => .updating request phase

/-- One step of a writer.  One that is ready goes on, so this is not for it to take before all
    have read. -/
def Writer.step {σ : Type} (db : Database σ) (race : Race) (w : Writer) : StateM σ Writer :=
  match w.stage with
  | .reading => do
    let seen ← db.around.store.read race.id
    return { w with stage := .ready seen }
  | .ready seen => return { w with stage := race.start w.number seen }
  | .updating request phase => do
    let phase ← request.next db.rules db.around phase
    return { w with stage := race.proceed w.number request phase }
  | .done _ => return w

/-- What came of a writer, once it is done. -/
def Writer.outcome? (w : Writer) : Option (Except Failure Sighting) :=
  match w.stage with
  | .done outcome => some outcome
  | _ => none

/-- A bound on the steps that a writer has still to take. -/
def Writer.rank (rules : Rules) (w : Writer) : Nat :=
  match w.stage with
  | .reading => Phase.entering.rank rules + 3
  | .ready _ => Phase.entering.rank rules + 2
  | .updating _ phase => phase.rank rules + 1
  | .done _ => 0

/-- Each step brings a writer closer to its end. -/
theorem Writer.rank_step_lt {σ : Type} (db : Database σ) (race : Race) (w : Writer) (s : σ)
    (h : w.outcome? = none) : ((w.step db race s).1).rank db.rules < w.rank db.rules := by
  obtain ⟨number, stage⟩ := w
  cases stage with
  | reading => exact Nat.lt_succ_self _
  | ready seen =>
    match seen with
    | .error _ => exact Nat.zero_lt_succ _
    | .ok none => exact Nat.zero_lt_succ _
    | .ok (some _) => exact Nat.lt_succ_self _
  | updating request phase =>
    change (Writer.rank db.rules
      ⟨number, race.proceed number request (request.next db.rules db.around phase s).1⟩) < _
    unfold Race.proceed
    split
    · exact Nat.zero_lt_succ _
    next hnext =>
      refine Nat.succ_lt_succ (Request.rank_next_lt db.around phase s ?_)
      cases phase with
      | finished result => exact absurd hnext (Option.some_ne_none result)
      | _ => rfl
  | done outcome => exact absurd h (by simp [Writer.outcome?])

/-- Let a writer take its steps to the end. -/
def Writer.finish {σ : Type} (db : Database σ) (race : Race) (w : Writer) (s : σ) :
    Except Failure Sighting × σ :=
  match _h : w.outcome? with
  | some outcome => (outcome, s)
  | none =>
    let r := w.step db race s
    Writer.finish db race r.1 r.2
termination_by w.rank db.rules
decreasing_by exact Writer.rank_step_lt db race w s (by assumption)

-- ============================================================================
-- The race
-- ============================================================================

/-- The writers at the start, numbered from one. -/
def writers (n : Nat) : List Writer :=
  (List.range' 1 n).map fun number => ⟨number, .reading⟩

/-- What the writers race for: the record has to be a product. -/
def race {σ : Type} (db : Database σ) (id : RecordId) : Action σ Race := do
  match ← db.get id with
  | none => throw (.notFound id)
  | some base =>
    match Product.ofRecord base with
    | .error reason => throw (.validation (some id) reason)
    | .ok product => return ⟨id, product.price⟩

/-- Let all writers read, then let each update in turn. -/
def play {σ : Type} (db : Database σ) (race : Race) (n : Nat) :
    StateM σ (List (Except Failure Sighting)) := do
  let ready ← (writers n).mapM (Writer.step db race)
  ready.mapM (Writer.finish db race)

/-- Race writers on a record.  If some fail, the first of them decides. -/
def run {σ : Type} (db : Database σ) (id : RecordId) (n : Nat) : Action σ Report := do
  let race ← race db id
  let outcomes ← play db race n
  let details ← (outcomes.mapM fun outcome => outcome : Except Failure (List Sighting))
  return .of id details

-- ============================================================================
-- JSON
-- ============================================================================

/-- What a writer saw as a JSON object. -/
def Sighting.toJson (s : Sighting) : Json :=
  .object [("writer", .ofNat s.writer), ("status", .string s.status.name),
    ("detail", .string s.detail)]

/-- The report as a JSON object. -/
def Report.toJson (r : Report) : Json :=
  .object [("id", r.id.toJson), ("successes", .ofNat r.successes),
    ("conflicts", .ofNat r.conflicts), ("details", .array (r.details.map Sighting.toJson))]

end VersionedStore.Simulation
