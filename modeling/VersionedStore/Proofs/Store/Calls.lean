/-
  VersionedStore.Proofs.Store.Calls

  The steps by which clients act on a store.

  A write or a removal is one step, and both are a `Mutation`: a deed on a
  record, on condition of its version.  `Mutation.perform_outcome` says once
  everything that such a step can do; nothing after it opens the operations.

  A creation is three steps, between which others may act:

      asked --id--> named --version--> stamped --record--> entered

  It is `refused` where a counter has run out.  `Creation.run_eq_create` says
  that the three steps without a break are the store's own operation, and
  `Store.create_created` what that operation can come to.
-/
import VersionedStore.Store.Basic

namespace VersionedStore

-- ============================================================================
-- The view of a store through its records
-- ============================================================================

namespace Store

theorem get?_enter (r : Record) (s : Store) (id : RecordId) :
    (enter r s).2.get? id = if r.id = id then some r else s.get? id := by
  simp [enter, get?, Std.ExtTreeMap.getElem?_insert]

theorem takeId_of_some {s : Store} {n : UInt64} (h : nextNumber? s.lastId = some n) :
    takeId s = (.ok ⟨n⟩, { s with lastId := n }) := by
  simp [takeId, h]

theorem takeId_of_none {s : Store} (h : nextNumber? s.lastId = none) :
    takeId s = (.error (.exhausted idCounter), s) := by
  simp [takeId, h]

theorem takeVersion_of_some {s : Store} {n : UInt64} (h : nextNumber? s.lastVersion = some n) :
    takeVersion s = (.ok ⟨n⟩, { s with lastVersion := n }) := by
  simp [takeVersion, h]

theorem takeVersion_of_none {s : Store} (h : nextNumber? s.lastVersion = none) :
    takeVersion s = (.error (.exhausted versionCounter), s) := by
  simp [takeVersion, h]

theorem get?_erase (s : Store) (id other : RecordId) :
    get? { s with records := s.records.erase id } other
      = if id = other then none else s.get? other := by
  simp [get?, Std.ExtTreeMap.getElem?_erase]

theorem mem_toList_iff {s : Store} {r : Record} :
    r ∈ s.toList ↔ ∃ id, s.get? id = some r := by
  simp only [toList, List.mem_map, Prod.exists, exists_eq_right]
  exact exists_congr fun id => Std.ExtTreeMap.mem_toList_iff_getElem?_eq_some

-- ============================================================================
-- Creations in one step
-- ============================================================================

/-- What a creation without a break can come to: its answer, and the store after it. -/
inductive Created (now : Instant) (fields : Fields) (s : Store) :
    Except StoreError Record → Store → Prop where
  /-- There is no id left. -/
  | unnamed (hid : nextNumber? s.lastId = none) :
      Created now fields s (.error (.exhausted idCounter)) s
  /-- There is no version left; the id is used up. -/
  | unstamped {i : UInt64} (hid : nextNumber? s.lastId = some i)
      (hversion : nextNumber? s.lastVersion = none) :
      Created now fields s (.error (.exhausted versionCounter)) { s with lastId := i }
  | entered {i n : UInt64} (hid : nextNumber? s.lastId = some i)
      (hversion : nextNumber? s.lastVersion = some n) :
      Created now fields s (.ok (.create now ⟨i⟩ fields ⟨n⟩))
        (enter (.create now ⟨i⟩ fields ⟨n⟩) { s with lastId := i, lastVersion := n }).2

theorem create_of_unnamed {s : Store} (hid : nextNumber? s.lastId = none) (now : Instant)
    (fields : Fields) : create now fields s = (.error (.exhausted idCounter), s) := by
  simp only [create, bind, StateT.bind, takeId_of_none hid]
  rfl

theorem create_of_unstamped {s : Store} {i : UInt64} (hid : nextNumber? s.lastId = some i)
    (hversion : nextNumber? s.lastVersion = none) (now : Instant) (fields : Fields) :
    create now fields s = (.error (.exhausted versionCounter), { s with lastId := i }) := by
  have htake := takeVersion_of_none (s := { s with lastId := i }) hversion
  simp only [create, bind, StateT.bind, takeId_of_some hid, htake]
  rfl

theorem create_of_some {s : Store} {i n : UInt64} (hid : nextNumber? s.lastId = some i)
    (hversion : nextNumber? s.lastVersion = some n) (now : Instant) (fields : Fields) :
    create now fields s
      = (.ok (.create now ⟨i⟩ fields ⟨n⟩),
        (enter (.create now ⟨i⟩ fields ⟨n⟩) { s with lastId := i, lastVersion := n }).2) := by
  have htake := takeVersion_of_some (s := { s with lastId := i }) hversion
  simp only [create, bind, StateT.bind, takeId_of_some hid, htake]
  rfl

theorem create_created (now : Instant) (fields : Fields) (s : Store) :
    Created now fields s (create now fields s).1 (create now fields s).2 := by
  cases hid : nextNumber? s.lastId with
  | none =>
    rw [create_of_unnamed hid]
    exact .unnamed hid
  | some i =>
    cases hversion : nextNumber? s.lastVersion with
    | none =>
      rw [create_of_unstamped hid hversion]
      exact .unstamped hid hversion
    | some n =>
      rw [create_of_some hid hversion]
      exact .entered hid hversion

end Store

-- ============================================================================
-- Writes and removals
-- ============================================================================

/-- What is done to a record. -/
inductive Deed where
  | write (now : Instant) (fields : Fields)
  | delete
deriving DecidableEq

/-- A deed on a record, on condition that the record is at a version. -/
structure Mutation where
  id : RecordId
  expected : Version
  deed : Deed
deriving DecidableEq

namespace Mutation

/-- Carry a mutation out, in one step. -/
def perform (m : Mutation) : StateM Store (Except StoreError WriteOutcome) :=
  match m.deed with
  | .write now fields => Store.write now m.id m.expected fields
  | .delete => Store.delete m.id m.expected

/-- What a mutation of a store can come to: its answer, and the store after it. -/
inductive Outcome (m : Mutation) (s : Store) : Except StoreError WriteOutcome → Store → Prop where
  /-- There is no such record. -/
  | missing (hget : s.get? m.id = none) : Outcome m s (.ok .notFound) s
  /-- The record is at another version. -/
  | stale {current : Record} (hget : s.get? m.id = some current)
      (hne : current.version ≠ m.expected) : Outcome m s (.ok (.versionMismatch current)) s
  /-- There is no version left for a write. -/
  | spent {current : Record} {now : Instant} {fields : Fields}
      (hget : s.get? m.id = some current) (hversion : current.version = m.expected)
      (hdeed : m.deed = .write now fields) (hnext : nextNumber? s.lastVersion = none) :
      Outcome m s (.error (.exhausted Store.versionCounter)) s
  | written {current : Record} {now : Instant} {fields : Fields} {n : UInt64}
      (hget : s.get? m.id = some current) (hversion : current.version = m.expected)
      (hdeed : m.deed = .write now fields) (hnext : nextNumber? s.lastVersion = some n) :
      Outcome m s (.ok (.committed (current.successor now fields ⟨n⟩)))
        (Store.enter (current.successor now fields ⟨n⟩) { s with lastVersion := n }).2
  | removed {current : Record} (hget : s.get? m.id = some current)
      (hversion : current.version = m.expected) (hdeed : m.deed = .delete) :
      Outcome m s (.ok (.committed current)) { s with records := s.records.erase m.id }

/-- There is one thing only that a mutation of a store can come to. -/
theorem Outcome.perform_eq {m : Mutation} {s s' : Store} {answer : Except StoreError WriteOutcome}
    (h : m.Outcome s answer s') : m.perform s = (answer, s') := by
  obtain ⟨id, expected, deed⟩ := m
  cases h with
  | missing hget =>
    cases deed <;> simp [perform, Store.write, Store.delete, hget]
  | stale hget hne =>
    cases deed <;> simp [perform, Store.write, Store.delete, hget, Record.isCurrent_standing, hne]
  | spent hget hversion hdeed hnext =>
    subst hdeed
    simp [perform, Store.write, hget, Record.isCurrent_standing, hversion, Store.takeVersion, hnext]
  | written hget hversion hdeed hnext =>
    subst hdeed
    simp [perform, Store.write, hget, Record.isCurrent_standing, hversion, Store.takeVersion, hnext]
  | removed hget hversion hdeed =>
    subst hdeed
    simp [perform, Store.delete, hget, Record.isCurrent_standing, hversion]

theorem exists_outcome (m : Mutation) (s : Store) : ∃ answer s', m.Outcome s answer s' := by
  obtain ⟨id, expected, deed⟩ := m
  cases hget : s.get? id with
  | none => exact ⟨_, _, .missing hget⟩
  | some current =>
    by_cases hversion : current.version = expected
    · cases deed with
      | delete => exact ⟨_, _, .removed hget hversion rfl⟩
      | write now fields =>
        cases hnext : nextNumber? s.lastVersion with
        | none => exact ⟨_, _, .spent hget hversion rfl hnext⟩
        | some n => exact ⟨_, _, .written hget hversion rfl hnext⟩
    · exact ⟨_, _, .stale hget hversion⟩

theorem perform_outcome (m : Mutation) (s : Store) :
    m.Outcome s (m.perform s).1 (m.perform s).2 := by
  obtain ⟨answer, s', h⟩ := m.exists_outcome s
  rw [h.perform_eq]
  exact h

/-- A mutation that took place has found the record at the version that it presented. -/
theorem current_of_committed {m : Mutation} {s : Store} {r : Record}
    (h : (m.perform s).1 = .ok (.committed r)) :
    ∃ current, s.get? m.id = some current ∧ current.version = m.expected := by
  have houtcome := m.perform_outcome s
  generalize (m.perform s).2 = s' at houtcome
  rw [h] at houtcome
  cases houtcome with
  | written hget hversion => exact ⟨_, hget, hversion⟩
  | removed hget hversion => exact ⟨_, hget, hversion⟩

end Mutation

-- ============================================================================
-- Creations
-- ============================================================================

/-- How far a creation has come. -/
inductive Stage where
  /-- About to take an id. -/
  | asked
  /-- About to take a version. -/
  | named (id : RecordId)
  /-- About to enter the record. -/
  | stamped (r : Record)
  | entered (r : Record)
  /-- A counter had run out; the id that was taken before that is used up. -/
  | refused (id : Option RecordId) (error : StoreError)
deriving DecidableEq

namespace Stage

/-- The id that a creation was given. -/
def id? : Stage → Option RecordId
  | asked => none
  | named id => some id
  | stamped r | entered r => some r.id
  | refused id _ => id

/-- The record that waits to be entered. -/
def pending? : Stage → Option Record
  | stamped r => some r
  | asked | named _ | entered _ | refused .. => none

/-- The record that was entered. -/
def entered? : Stage → Option Record
  | entered r => some r
  | asked | named _ | stamped _ | refused .. => none

/-- The answer to a creation that is over. -/
def answer? : Stage → Option (Except StoreError Record)
  | entered r => some (.ok r)
  | refused _ e => some (.error e)
  | asked | named _ | stamped _ => none

end Stage

/-- A creation that is under way or over. -/
structure Creation where
  fields : Fields
  stage : Stage
deriving DecidableEq

namespace Creation

/-- The stage after an id was asked for. -/
def afterId : Except StoreError RecordId → Stage
  | .ok id => .named id
  | .error e => .refused none e

/-- The stage after a version was asked for. -/
def afterVersion (now : Instant) (id : RecordId) (fields : Fields) :
    Except StoreError Version → Stage
  | .ok version => .stamped (.create now id fields version)
  | .error e => .refused (some id) e

/-- Take the next step of a creation. -/
def next (now : Instant) (c : Creation) : StateM Store Creation :=
  match c.stage with
  | .asked => (fun answer => { c with stage := afterId answer }) <$> Store.takeId
  | .named id =>
    (fun answer => { c with stage := afterVersion now id c.fields answer }) <$> Store.takeVersion
  | .stamped r => (fun () => { c with stage := .entered r }) <$> Store.enter r
  | .entered _ | .refused .. => pure c

theorem next_asked (now : Instant) (fields : Fields) (s : Store) :
    next now ⟨fields, .asked⟩ s
      = (⟨fields, afterId (Store.takeId s).1⟩, (Store.takeId s).2) :=
  rfl

theorem next_named (now : Instant) (fields : Fields) (id : RecordId) (s : Store) :
    next now ⟨fields, .named id⟩ s
      = (⟨fields, afterVersion now id fields (Store.takeVersion s).1⟩,
        (Store.takeVersion s).2) :=
  rfl

/-- A creation that is over stays as it is. -/
theorem next_of_answer {now : Instant} {c : Creation} (h : c.stage.answer?.isSome) (s : Store) :
    next now c s = (c, s) := by
  obtain ⟨fields, stage⟩ := c
  cases stage with
  | asked | named | stamped => contradiction
  | entered | refused => rfl

/-- The three steps of a creation, one after the other. -/
def run (now : Instant) (fields : Fields) : StateM Store Creation := do
  let c ← next now ⟨fields, .asked⟩
  let c ← next now c
  next now c

theorem run_of_next {now : Instant} {fields : Fields} {s s' s'' : Store} {c c' : Creation}
    (hfirst : next now ⟨fields, .asked⟩ s = (c, s')) (hsecond : next now c s' = (c', s'')) :
    run now fields s = next now c' s'' := by
  have hrun : run now fields s
      = next now (next now (next now ⟨fields, .asked⟩ s).1 (next now ⟨fields, .asked⟩ s).2).1
        (next now (next now ⟨fields, .asked⟩ s).1 (next now ⟨fields, .asked⟩ s).2).2 := rfl
  rw [hrun, hfirst, hsecond]

/-- The three steps without a break are the store's own creation. -/
theorem run_eq_create (now : Instant) (fields : Fields) (s : Store) :
    ((run now fields s).1.stage.answer?, (run now fields s).2)
      = (some (Store.create now fields s).1, (Store.create now fields s).2) := by
  cases hid : nextNumber? s.lastId with
  | none =>
    have hrun := run_of_next (next_asked now fields s) (next_of_answer (by
      rw [Store.takeId_of_none hid]
      rfl) _)
    rw [hrun, Store.create_of_unnamed hid, Store.takeId_of_none hid]
    rfl
  | some i =>
    have hnamed := next_asked now fields s
    rw [Store.takeId_of_some hid, afterId] at hnamed
    cases hversion : nextNumber? s.lastVersion with
    | none =>
      have htake := Store.takeVersion_of_none (s := { s with lastId := i }) hversion
      rw [run_of_next hnamed (next_named ..), Store.create_of_unstamped hid hversion, htake]
      rfl
    | some n =>
      have htake := Store.takeVersion_of_some (s := { s with lastId := i }) hversion
      rw [run_of_next hnamed (next_named ..), Store.create_of_some hid hversion, htake]
      rfl

end Creation

end VersionedStore
