/-
  VersionedStore.World

  The surroundings of requests in one process: the store in memory, a clock that
  moves when someone sleeps, and the signals that were triggered.  The clock
  counts nanoseconds from the start of 1970, without a limit, and gives the times
  of records as well.
-/
import VersionedStore.Store.Basic
import VersionedStore.Update.Phase

namespace VersionedStore

open Update

/-- A store, a clock and signals. -/
structure World where
  store : Store
  clock : Time
  triggered : List Signal

namespace World

/-- An empty store at a given time. -/
def startingAt (clock : Time) : World := ⟨∅, clock, []⟩

instance : Inhabited World := ⟨startingAt 0⟩

/-- The time that is written into records. -/
def instant (w : World) : Instant :=
  Instant.ofNanoseconds w.clock

/-- Act on the store, given the time. -/
def onStore {α : Type} (act : Instant → StateM Store α) : StateM World α := fun w =>
  let r := act w.instant w.store
  (r.1, { w with store := r.2 })

/-- Trigger a signal; it stays triggered. -/
def trigger (signal : Signal) : StateM World Unit := fun w =>
  ((), if signal ∈ w.triggered then w else { w with triggered := signal :: w.triggered })

/-- Let time pass. -/
def sleep (length : Nat) : StateM World Unit := fun w =>
  ((), { w with clock := w.clock + length })

/-- The signals and the clock. -/
def watch : Watch World where
  isTriggered signal := fun w => (decide (signal ∈ w.triggered), w)
  now := fun w => (w.clock, w)
  sleep := sleep

/-- The store. -/
def records : RecordStore World where
  read id := onStore fun _ => Store.read id
  create fields := onStore fun now => Store.create now fields
  write id expected fields := onStore fun now => Store.write now id expected fields
  delete id expected := onStore fun _ => Store.delete id expected
  list := onStore fun _ => Store.list

/-- All that a request acts on. -/
def surroundings : Surroundings World := ⟨records, watch⟩

end World

end VersionedStore
