/-
  VersionedStore.Store.Scripted

  A store whose calls are met by a script: failures, triggered signals, lapses
  of time, and rivals that get in just before the call.

  The calls of each kind are counted from one.  Before a call is passed on, every
  rule that covers its kind and its number is carried out, in the order of the
  script; a rule that makes the call fail ends it there.
-/
import VersionedStore.World

namespace VersionedStore

open Update

namespace Scripted

/-- The kinds of calls of a store. -/
inductive Call where
  | read
  | write
  | create
  | delete
  | list
deriving DecidableEq, Repr

namespace Call

/-- The name of a kind of call. -/
def name : Call → String
  | read => "read"
  | write => "write"
  | create => "create"
  | delete => "delete"
  | list => "list"

/-- All kinds of calls. -/
def all : List Call := [read, write, create, delete, list]

end Call

/-- What a rival does to a record, at whatever version it is. -/
inductive Rival where
  | remove
  | apply (change : Change)
deriving DecidableEq

/-- What happens before a call. -/
inductive Event where
  /-- The call fails. -/
  | fail (error : StoreError)
  | trigger (signal : Signal)
  /-- Time passes, in nanoseconds. -/
  | sleep (length : Nat)
  /-- A rival gets at the record that the call is about, if it is there. -/
  | interrupt (rival : Rival)
deriving DecidableEq

/-- What happens before the calls of one kind whose numbers lie in a range. -/
structure Rule where
  call : Call
  first : Nat
  last : Nat
  event : Event
deriving DecidableEq

/-- Whether a rule covers a call. -/
def Rule.covers (r : Rule) (call : Call) (number : Nat) : Bool :=
  r.call == call && r.first ≤ number && number ≤ r.last

end Scripted

/-- A store that is met by a script. -/
structure Scripted where
  world : World
  script : List Scripted.Rule
  /-- How often each kind of call was made. -/
  count : Scripted.Call → Nat

namespace Scripted

/-- A fresh store and a script for it. -/
def start (world : World) (script : List Rule) : Scripted :=
  ⟨world, script, fun _ => 0⟩

/-- Act on the world behind the script. -/
def onWorld {α : Type} (act : StateM World α) : StateM Scripted α := fun s =>
  let r := act s.world
  (r.1, { s with world := r.2 })

/-- A rival gets at a record.  A change that cannot be applied is an error. -/
def Rival.strike (rival : Rival) (id : RecordId) : StateM World (Except StoreError Unit) := fun w =>
  match w.store.get? id with
  | none => (.ok (), w)
  | some current =>
    match rival with
    | .remove =>
      let r := World.records.delete id current.version w
      (r.1.map fun _ => (), r.2)
    | .apply change =>
      match change.apply current.fields with
      | .error reason => (.error (.corruption reason.message), w)
      | .ok fields =>
        let r := World.records.write id current.version fields w
        (r.1.map fun _ => (), r.2)

/-- Carry an event out, for a call that may be about a record. -/
def Event.carryOut (about : Option RecordId) : Event → StateM World (Except StoreError Unit)
  | .fail e => pure (.error e)
  | .trigger signal => .ok <$> World.trigger signal
  | .sleep length => .ok <$> World.sleep length
  | .interrupt rival =>
    match about with
    | some id => rival.strike id
    | none => pure (.ok ())

/-- Carry events out up to the first that makes the call fail. -/
def carryOutAll (about : Option RecordId) : List Event → StateM World (Except StoreError Unit)
  | [] => pure (.ok ())
  | event :: events => do
    match ← event.carryOut about with
    | .error e => return .error e
    | .ok () => carryOutAll about events

/-- Count a call, carry the script out, and pass the call on unless it has failed. -/
def meet {α : Type} (call : Call) (about : Option RecordId)
    (act : StateM World (Except StoreError α)) : StateM Scripted (Except StoreError α) := fun s =>
  let number := s.count call + 1
  let count := fun c => if c = call then number else s.count c
  let events := (s.script.filter (·.covers call number)).map (·.event)
  let r := carryOutAll about events s.world
  match r.1 with
  | .error e => (.error e, { s with world := r.2, count })
  | .ok () =>
    let r := act r.2
    (r.1, { s with world := r.2, count })

/-- The store behind its script. -/
def records : RecordStore Scripted where
  read id := meet .read (some id) (World.records.read id)
  create fields := meet .create none (World.records.create fields)
  write id expected fields := meet .write (some id) (World.records.write id expected fields)
  delete id expected := meet .delete (some id) (World.records.delete id expected)
  list := meet .list none World.records.list

/-- The signals and the clock of the world behind the script. -/
def watch : Watch Scripted where
  isTriggered signal := onWorld (World.watch.isTriggered signal)
  now := onWorld World.watch.now
  sleep length := onWorld (World.watch.sleep length)
  latest := World.watch.latest

/-- All that a request acts on. -/
def surroundings : Surroundings Scripted := ⟨records, watch⟩

end Scripted

end VersionedStore
