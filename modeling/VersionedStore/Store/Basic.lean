/-
  VersionedStore.Store.Basic

  The store in memory: the live records by id, and two counters.  Ids and
  versions are handed out in ascending order and never twice; a counter that has
  reached the end of its range hands out nothing more.

  A creation takes its id, then its version, and enters the record last; these
  are steps of their own (`takeId`, `takeVersion`, `enter`), because other
  clients may act between them.  A write or a removal is one step.

  Every operation takes the time as an argument and uses it for nothing but the
  times in the records.
-/
import Std.Data.ExtTreeMap
import VersionedStore.Store.Access

namespace VersionedStore

/-- The records and counters of a store. -/
structure Store where
  /-- The live records. -/
  records : Std.ExtTreeMap RecordId Record
  /-- The version handed out last; zero if none was. -/
  lastVersion : UInt64
  /-- The id handed out last; zero if none was. -/
  lastId : UInt64
deriving DecidableEq

/-- The number after a counter's last one, unless the range has ended. -/
def nextNumber? (last : UInt64) : Option UInt64 :=
  if last.toNat + 1 < UInt64.size then some (last + 1) else none

namespace Store

/-- A store without records that has handed out nothing. -/
def empty : Store := ⟨∅, 0, 0⟩

instance : EmptyCollection Store := ⟨empty⟩

instance : Inhabited Store := ⟨empty⟩

/-- The name of the counter of versions. -/
def versionCounter : String := "version"

/-- The name of the counter of ids. -/
def idCounter : String := "record id"

-- ============================================================================
-- Steps
-- ============================================================================

/-- Hand out the next id. -/
def takeId : StateM Store (Except StoreError RecordId) := fun s =>
  match nextNumber? s.lastId with
  | some n => (.ok ⟨n⟩, { s with lastId := n })
  | none => (.error (.exhausted idCounter), s)

/-- Hand out the next version. -/
def takeVersion : StateM Store (Except StoreError Version) := fun s =>
  match nextNumber? s.lastVersion with
  | some n => (.ok ⟨n⟩, { s with lastVersion := n })
  | none => (.error (.exhausted versionCounter), s)

/-- Put a record in its place. -/
def enter (r : Record) : StateM Store Unit := fun s =>
  ((), { s with records := s.records.insert r.id r })

-- ============================================================================
-- Operations
-- ============================================================================

/-- The record of an id, if it is live. -/
def get? (s : Store) (id : RecordId) : Option Record :=
  s.records[id]?

/-- How many records are live. -/
def size (s : Store) : Nat :=
  s.records.size

/-- Whether no record is live. -/
def isEmpty (s : Store) : Bool :=
  s.records.isEmpty

/-- The live records in ascending order of their ids. -/
def toList (s : Store) : List Record :=
  s.records.toList.map (·.2)

/-- Look a record up. -/
def read (id : RecordId) : StateM Store (Except StoreError (Option Record)) := fun s =>
  (.ok (s.get? id), s)

/-- Create a record.  If the versions have run out, the id is used up all the same. -/
def create (now : Instant) (fields : Fields) : StateM Store (Except StoreError Record) := do
  match ← takeId with
  | .error e => return .error e
  | .ok id =>
    match ← takeVersion with
    | .error e => return .error e
    | .ok version =>
      let r := Record.create now id fields version
      enter r
      return .ok r

/-- Write new fields if the record is at the expected version. -/
def write (now : Instant) (id : RecordId) (expected : Version) (fields : Fields) :
    StateM Store (Except StoreError WriteOutcome) := fun s =>
  match s.get? id with
  | none => (.ok .notFound, s)
  | some current =>
    if (current.standing expected).isCurrent then
      match takeVersion s with
      | (.error e, s) => (.error e, s)
      | (.ok version, s) =>
        let next := current.successor now fields version
        (.ok (.committed next), (enter next s).2)
    else (.ok (.versionMismatch current), s)

/-- Remove a record if it is at the expected version. -/
def delete (id : RecordId) (expected : Version) :
    StateM Store (Except StoreError WriteOutcome) := fun s =>
  match s.get? id with
  | none => (.ok .notFound, s)
  | some current =>
    if (current.standing expected).isCurrent then
      (.ok (.committed current), { s with records := s.records.erase id })
    else (.ok (.versionMismatch current), s)

/-- List the live records. -/
def list : StateM Store (Except StoreError (List Record)) := fun s =>
  (.ok s.toList, s)

/-- The number of records and the last version. -/
def text (s : Store) : String :=
  "ShardedStore \x7b records: " ++ toString s.size ++ ", version: " ++ toString s.lastVersion
    ++ " \x7d"

-- ============================================================================
-- Laws
-- ============================================================================

theorem nextNumber?_eq_none_iff {last : UInt64} :
    nextNumber? last = none ↔ last.toNat = UInt64.size - 1 := by
  have hlt := last.toNat_lt_size
  have hsize : UInt64.size = 18446744073709551616 := rfl
  unfold nextNumber?
  split
  next h => simp; omega
  next h => simp; omega

theorem toNat_nextNumber? {last next : UInt64} (h : nextNumber? last = some next) :
    next.toNat = last.toNat + 1 := by
  unfold nextNumber? at h
  split at h
  next hlt =>
    obtain rfl := Option.some.inj h
    rw [UInt64.toNat_add]
    exact Nat.mod_eq_of_lt hlt
  next => contradiction

theorem read_fst (id : RecordId) (s : Store) : (read id s).1 = .ok (s.get? id) := rfl

end Store

end VersionedStore
