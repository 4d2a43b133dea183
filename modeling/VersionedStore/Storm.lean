/-
  VersionedStore.Storm

  Workers that all add to the stock of one product, each a number of times.  Sums
  that lose their races are tried again under the rules of the database; a
  worker counts what became of each of its updates.

  `Worker.step` is one step of one worker; in which order workers take their
  steps is left open by it.  `Storm.run` lets one worker after the other take
  all its steps.
-/
import VersionedStore.Database

namespace VersionedStore.Storm

open Update

/-- What became of updates. -/
structure Tally where
  committed : Nat
  /-- Updates that lost every race they were allowed. -/
  exhausted : Nat
  /-- Updates whose fields were refused. -/
  rejected : Nat
  failed : Nat
  /-- Writes issued by the updates that committed or lost every race. -/
  writes : Nat
deriving DecidableEq, Repr

namespace Tally

/-- No updates. -/
def empty : Tally := ⟨0, 0, 0, 0, 0⟩

instance : Inhabited Tally := ⟨empty⟩

/-- The updates of both sides. -/
def add (s t : Tally) : Tally :=
  ⟨s.committed + t.committed, s.exhausted + t.exhausted, s.rejected + t.rejected,
    s.failed + t.failed, s.writes + t.writes⟩

/-- Count one more update. -/
def count (t : Tally) (result : Result) : Tally :=
  match result with
  | .ok done => { t with committed := t.committed + 1, writes := t.writes + done.attempts }
  | .error e =>
    match Failure.ofUpdateError e with
    | .retryExhausted report =>
      { t with exhausted := t.exhausted + 1, writes := t.writes + report.attempts }
    | .validation _ _ => { t with rejected := t.rejected + 1 }
    | _ => { t with failed := t.failed + 1 }

end Tally

-- ============================================================================
-- One worker
-- ============================================================================

/-- What the workers do to the record. -/
structure Task where
  id : RecordId
  delta : Int64
deriving DecidableEq, Repr

/-- The request that workers make. -/
def Task.request (task : Task) : Request :=
  .adjust task.id Catalog.stockField task.delta

/-- A worker. -/
structure Worker where
  tally : Tally
  /-- Updates that are still to be started. -/
  left : Nat
  /-- Where the update that is under way stands. -/
  current : Option Phase

namespace Worker

/-- A worker that has a number of updates to make. -/
def start (rounds : Nat) : Worker :=
  ⟨.empty, rounds, none⟩

/-- The worker after an observation of its update. -/
def proceed (w : Worker) (phase : Phase) : Worker :=
  match phase.result? with
  | some result => { w with tally := w.tally.count result, current := none }
  | none => { w with current := some phase }

/-- One step of a worker. -/
def step {σ : Type} (db : Database σ) (task : Task) (w : Worker) : StateM σ Worker :=
  match w.current, w.left with
  | some phase, _ => do
    let phase ← task.request.next db.rules db.around phase
    return w.proceed phase
  | none, left + 1 => return { w with left, current := some .entering }
  | none, 0 => return w

/-- Whether a worker has nothing left to do. -/
def isDone (w : Worker) : Bool :=
  w.left == 0 && w.current.isNone

/-- A bound on the steps that a worker has still to take. -/
def rank (rules : Rules) (w : Worker) : Nat :=
  w.left * (Phase.entering.rank rules + 2)
    + match w.current with
      | some phase => phase.rank rules + 1
      | none => 0

/-- Each step brings a worker closer to its end. -/
theorem rank_step_lt {σ : Type} (db : Database σ) (task : Task) (w : Worker) (s : σ)
    (h : w.isDone = false) : ((w.step db task s).1).rank db.rules < w.rank db.rules := by
  obtain ⟨tally, left, current⟩ := w
  cases current with
  | none =>
    cases left with
    | zero => exact absurd h (by simp [isDone])
    | succ left =>
      change left * (Phase.entering.rank db.rules + 2) + (Phase.entering.rank db.rules + 1)
        < (left + 1) * (Phase.entering.rank db.rules + 2)
      rw [Nat.succ_mul]
      exact Nat.add_lt_add_left (Nat.lt_succ_self _) _
  | some phase =>
    change (rank db.rules
      (proceed ⟨tally, left, some phase⟩ (task.request.next db.rules db.around phase s).1)) < _
    unfold proceed
    split
    · simp [rank]
    next hnext =>
      refine Nat.add_lt_add_left (Nat.succ_lt_succ (Request.rank_next_lt db.around phase s ?_)) _
      cases phase with
      | finished result => exact absurd hnext (Option.some_ne_none result)
      | _ => rfl

/-- Let a worker take its steps to the end. -/
def finish {σ : Type} (db : Database σ) (task : Task) (w : Worker) (s : σ) : Tally × σ :=
  if _h : w.isDone then (w.tally, s)
  else
    let r := w.step db task s
    finish db task r.1 r.2
termination_by w.rank db.rules
decreasing_by exact rank_step_lt db task w s (by simpa using _h)

end Worker

-- ============================================================================
-- The storm
-- ============================================================================

/-- What came of a storm. -/
structure Report where
  product : String
  initialStock : Int64
  finalStock : Int64
  total : Tally
  /-- The stock that should be there, less the stock that is. -/
  lostUpdates : Int64
deriving DecidableEq, Repr

/-- The report on a product before and after the updates of a task. -/
def Report.of (before after : Product) (task : Task) (total : Tally) : Report :=
  let due := before.stock + task.delta * Int64.ofNat total.committed
  ⟨before.name, before.stock, after.stock, total, due - after.stock⟩

/-- Let workers with a number of updates each work one after the other. -/
def run {σ : Type} (db : Database σ) (task : Task) (workers rounds : Nat) : StateM σ Tally := do
  let tallies ← (List.replicate workers (Worker.start rounds)).mapM (Worker.finish db task)
  return tallies.foldl Tally.add .empty

/-- The report as a JSON object. -/
def Report.toJson (r : Report) : Json :=
  .object [("product", .string r.product), ("initial_stock", .integer r.initialStock.toInt),
    ("final_stock", .integer r.finalStock.toInt), ("committed", .ofNat r.total.committed),
    ("exhausted", .ofNat r.total.exhausted), ("rejected", .ofNat r.total.rejected),
    ("failed", .ofNat r.total.failed), ("writes_issued", .ofNat r.total.writes),
    ("lost_updates", .integer r.lostUpdates.toInt)]

end VersionedStore.Storm
