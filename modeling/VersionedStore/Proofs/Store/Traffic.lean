/-
  VersionedStore.Proofs.Store.Traffic

  A store that many clients act on at once.

  `Traffic` is a store, the creations that were begun, by number, and a log of
  what was entered and of every write and removal with its answer.  An `Action`
  is one indivisible step of one client; a run is any list of actions, so it is
  any interleaving of the steps of any number of clients.

  `Traffic.step_moves` says once what an action can do.  The states of records
  that were ever committed are the `links` of the log, each with its owner.
-/
import Mathlib.Logic.Function.Basic
import VersionedStore.Proofs.Store.Calls

namespace VersionedStore

/-- Who committed a state of a record. -/
inductive Owner where
  | creation (number : Nat)
  | client (number : Nat)
deriving DecidableEq

/-- A committed state of a record and who committed it. -/
structure Link where
  owner : Owner
  record : Record
deriving DecidableEq

/-- What the log keeps of a step. -/
inductive Entry where
  | entered (creation : Nat) (r : Record)
  | mutated (client : Nat) (m : Mutation) (answer : Except StoreError WriteOutcome)

namespace Entry

/-- The state that a step committed. -/
def link? : Entry → Option Link
  | entered k r => some ⟨.creation k, r⟩
  | mutated client ⟨_, _, .write ..⟩ (.ok (.committed r)) => some ⟨.client client, r⟩
  | mutated .. => none

/-- The client and the record of a removal that took place. -/
def removal? : Entry → Option (Nat × Record)
  | mutated client ⟨_, _, .delete⟩ (.ok (.committed r)) => some (client, r)
  | _ => none

/-- Whether the step is a write or a removal that took place and had presented a version of a
    record. -/
def consumes (id : RecordId) (v : Version) : Entry → Bool
  | mutated _ m (.ok (.committed _)) => m.id = id && m.expected = v
  | _ => false

end Entry

/-- A store under the steps of its clients. -/
structure Traffic where
  store : Store
  /-- The creations begun so far, by number. -/
  creations : Nat → Option Creation
  /-- What has happened, the oldest first. -/
  log : List Entry

/-- One step of one client. -/
inductive Traffic.Action where
  /-- A creation is begun, unless its number is taken. -/
  | ask (creation : Nat) (fields : Fields)
  /-- A creation takes its next step. -/
  | advance (creation : Nat) (now : Instant)
  /-- A client writes or removes. -/
  | mutate (client : Nat) (m : Mutation)

namespace Traffic

/-- A store without records, before its first client. -/
def start : Traffic := ⟨∅, fun _ => none, []⟩

/-- What the log keeps when a creation takes its next step. -/
def entriesOf (k : Nat) (c : Creation) : List Entry :=
  match c.stage with
  | .stamped r => [.entered k r]
  | _ => []

/-- Let a client take a step.  A creation that was not begun takes none. -/
def step (t : Traffic) : Action → Traffic
  | .ask k fields =>
    match t.creations k with
    | none => { t with creations := Function.update t.creations k (some ⟨fields, .asked⟩) }
    | some _ => t
  | .advance k now =>
    match t.creations k with
    | none => t
    | some c =>
      ⟨(c.next now t.store).2, Function.update t.creations k (some (c.next now t.store).1),
        t.log ++ entriesOf k c⟩
  | .mutate client m =>
    ⟨(m.perform t.store).2, t.creations, t.log ++ [.mutated client m (m.perform t.store).1]⟩

/-- Let clients take steps, one after the other. -/
def after (t : Traffic) (actions : List Action) : Traffic :=
  actions.foldl step t

/-- The traffic after steps on a fresh store. -/
def run (actions : List Action) : Traffic :=
  start.after actions

/-- What every step keeps, a run keeps. -/
theorem after_invariant {P : Traffic → Prop} (hstep : ∀ t a, P t → P (t.step a)) {t : Traffic}
    (h : P t) (actions : List Action) : P (t.after actions) := by
  induction actions generalizing t with
  | nil => exact h
  | cons a rest ih => exact ih (hstep t a h)

theorem step_advance {t : Traffic} {k : Nat} {c : Creation} (hc : t.creations k = some c)
    (now : Instant) :
    t.step (.advance k now)
      = ⟨(c.next now t.store).2, Function.update t.creations k (some (c.next now t.store).1),
        t.log ++ entriesOf k c⟩ := by
  simp [step, hc]

/-- A creation under a number that is not taken, from its beginning to its end. -/
theorem after_creation {t : Traffic} {k : Nat} (hk : t.creations k = none) (now : Instant)
    (fields : Fields) :
    (t.after [.ask k fields, .advance k now, .advance k now, .advance k now]).store
        = (Creation.run now fields t.store).2 ∧
      (t.after [.ask k fields, .advance k now, .advance k now, .advance k now]).creations k
        = some (Creation.run now fields t.store).1 := by
  have hadvance : ∀ {u : Traffic} {c : Creation}, u.creations k = some c →
      (u.step (.advance k now)).store = (c.next now u.store).2 ∧
        (u.step (.advance k now)).creations k = some (c.next now u.store).1 := by
    intro u c hc
    rw [step_advance hc]
    exact ⟨rfl, Function.update_self ..⟩
  have hask : (t.step (.ask k fields)).store = t.store ∧
      (t.step (.ask k fields)).creations k = some ⟨fields, .asked⟩ := by
    simp [step, hk]
  obtain ⟨hstore, hcreation⟩ := hask
  obtain ⟨hstore₁, hcreation₁⟩ := hadvance hcreation
  obtain ⟨hstore₂, hcreation₂⟩ := hadvance hcreation₁
  obtain ⟨hstore₃, hcreation₃⟩ := hadvance hcreation₂
  rw [hstore₂, hstore₁, hstore] at hstore₃ hcreation₃
  exact ⟨hstore₃, hcreation₃⟩

/-- The states of records that were committed, in the order of the commits. -/
def links (t : Traffic) : List Link :=
  t.log.filterMap Entry.link?

/-- The removals that took place. -/
def removals (t : Traffic) : List (Nat × Record) :=
  t.log.filterMap Entry.removal?

/-- The states of one record, in the order of their commits. -/
def chain (t : Traffic) (id : RecordId) : List Link :=
  t.links.filter (·.record.id = id)

/-- The id that a creation was given. -/
def idOf (t : Traffic) (k : Nat) : Option RecordId :=
  (t.creations k).bind (·.stage.id?)

/-- The record that a creation is about to enter. -/
def pendingOf (t : Traffic) (k : Nat) : Option Record :=
  (t.creations k).bind (·.stage.pending?)

/-- The record that a creation has entered; it may have been written or removed since. -/
def enteredOf (t : Traffic) (k : Nat) : Option Record :=
  (t.creations k).bind (·.stage.entered?)

/-- A record of this id was entered. -/
def Born (t : Traffic) (id : RecordId) : Prop :=
  ∃ k r, t.enteredOf k = some r ∧ r.id = id

-- ============================================================================
-- What a step can do
-- ============================================================================

/-- What one step can do. -/
inductive Moves (t : Traffic) : Action → Traffic → Prop where
  | asks {k : Nat} {fields : Fields} (hc : t.creations k = none) :
      t.Moves (.ask k fields)
        { t with creations := Function.update t.creations k (some ⟨fields, .asked⟩) }
  | taken {k : Nat} {fields : Fields} {c : Creation} (hc : t.creations k = some c) :
      t.Moves (.ask k fields) t
  /-- There is no such creation, or it is over. -/
  | rests {k : Nat} {now : Instant}
      (hover : ∀ c, t.creations k = some c → c.stage.answer?.isSome) : t.Moves (.advance k now) t
  | named {k : Nat} {now : Instant} {fields : Fields} {n : UInt64}
      (hc : t.creations k = some ⟨fields, .asked⟩)
      (hnext : nextNumber? t.store.lastId = some n) :
      t.Moves (.advance k now)
        { t with
          store := { t.store with lastId := n }
          creations := Function.update t.creations k (some ⟨fields, .named ⟨n⟩⟩) }
  | unnamed {k : Nat} {now : Instant} {fields : Fields}
      (hc : t.creations k = some ⟨fields, .asked⟩)
      (hnext : nextNumber? t.store.lastId = none) :
      t.Moves (.advance k now)
        { t with
          creations :=
            Function.update t.creations k
              (some ⟨fields, .refused none (.exhausted Store.idCounter)⟩) }
  | stamped {k : Nat} {now : Instant} {fields : Fields} {id : RecordId} {n : UInt64}
      (hc : t.creations k = some ⟨fields, .named id⟩)
      (hnext : nextNumber? t.store.lastVersion = some n) :
      t.Moves (.advance k now)
        { t with
          store := { t.store with lastVersion := n }
          creations :=
            Function.update t.creations k
              (some ⟨fields, .stamped (.create now id fields ⟨n⟩)⟩) }
  | unstamped {k : Nat} {now : Instant} {fields : Fields} {id : RecordId}
      (hc : t.creations k = some ⟨fields, .named id⟩)
      (hnext : nextNumber? t.store.lastVersion = none) :
      t.Moves (.advance k now)
        { t with
          creations :=
            Function.update t.creations k
              (some ⟨fields, .refused (some id) (.exhausted Store.versionCounter)⟩) }
  | enters {k : Nat} {now : Instant} {fields : Fields} {r : Record}
      (hc : t.creations k = some ⟨fields, .stamped r⟩) :
      t.Moves (.advance k now)
        ⟨(Store.enter r t.store).2, Function.update t.creations k (some ⟨fields, .entered r⟩),
          t.log ++ [.entered k r]⟩
  | mutates {client : Nat} {m : Mutation} {answer : Except StoreError WriteOutcome} {s : Store}
      (h : m.Outcome t.store answer s) :
      t.Moves (.mutate client m) ⟨s, t.creations, t.log ++ [.mutated client m answer]⟩

theorem step_moves (t : Traffic) (a : Action) : t.Moves a (t.step a) := by
  cases a with
  | ask k fields =>
    simp only [step]
    cases hc : t.creations k with
    | none => exact .asks hc
    | some _ => exact .taken hc
  | mutate client m => exact .mutates (m.perform_outcome t.store)
  | advance k now =>
    cases hc : t.creations k with
    | none =>
      have hstep : t.step (.advance k now) = t := by simp [step, hc]
      rw [hstep]
      exact .rests (by simp [hc])
    | some c =>
      rw [step_advance hc]
      have hover : c.stage.answer?.isSome → entriesOf k c = [] → t.Moves (.advance k now)
          ⟨(c.next now t.store).2, Function.update t.creations k (some (c.next now t.store).1),
            t.log ++ entriesOf k c⟩ := by
        intro hanswer hentries
        have hsame : Function.update t.creations k (some c) = t.creations := by
          rw [← hc, Function.update_eq_self]
        rw [Creation.next_of_answer hanswer, hentries, List.append_nil, hsame]
        refine .rests fun c' hc' => ?_
        rw [hc] at hc'
        exact Option.some.inj hc' ▸ hanswer
      obtain ⟨fields, stage⟩ := c
      cases stage with
      | asked =>
        simp only [Creation.next_asked, entriesOf, List.append_nil]
        cases hnext : nextNumber? t.store.lastId with
        | none =>
          rw [Store.takeId_of_none hnext]
          exact .unnamed hc hnext
        | some n =>
          rw [Store.takeId_of_some hnext]
          exact .named hc hnext
      | named id =>
        simp only [Creation.next_named, entriesOf, List.append_nil]
        cases hnext : nextNumber? t.store.lastVersion with
        | none =>
          rw [Store.takeVersion_of_none hnext]
          exact .unstamped hc hnext
        | some n =>
          rw [Store.takeVersion_of_some hnext]
          exact .stamped hc hnext
      | stamped r => exact .enters hc
      | entered r => exact hover rfl rfl
      | refused id e => exact hover rfl rfl

/-- What one step can do to ids: nothing, or hand out the next one. -/
theorem Moves.idOf {t t' : Traffic} {a : Action} (h : t.Moves a t') :
    ((∀ j, t'.idOf j = t.idOf j) ∧ t'.store.lastId = t.store.lastId) ∨
      ∃ k n, t.idOf k = none ∧ nextNumber? t.store.lastId = some n ∧ t'.store.lastId = n ∧
        ∀ j, t'.idOf j = if j = k then some ⟨n⟩ else t.idOf j := by
  cases h with
  | taken | rests => exact .inl ⟨fun _ => rfl, rfl⟩
  | mutates h => cases h <;> exact .inl ⟨fun _ => rfl, rfl⟩
  | @named k _ _ n hc hnext =>
    refine .inr ⟨k, n, by simp [Traffic.idOf, hc, Stage.id?], hnext, rfl, fun j => ?_⟩
    by_cases hj : j = k <;> simp [Traffic.idOf, hj, Stage.id?]
  | asks hc | unnamed hc | stamped hc | unstamped hc | enters hc =>
    refine .inl ⟨fun j => ?_, rfl⟩
    simp only [Traffic.idOf, Function.update_apply]
    split
    next hj => subst hj; simp [hc, Stage.id?, Record.create]
    next => rfl

/-- What one step can do to versions and records. -/
inductive Effect (t t' : Traffic) : Action → Prop where
  | quiet {a : Action}
      (hlast : t'.store.lastVersion = t.store.lastVersion)
      (hlinks : t'.links = t.links)
      (hpending : ∀ j, t'.pendingOf j = t.pendingOf j)
      (hentered : ∀ j, t'.enteredOf j = t.enteredOf j)
      (hremovals : t'.removals = t.removals)
      (hget : ∀ id, t'.store.get? id = t.store.get? id) : Effect t t' a
  /-- A creation is given a version. -/
  | stamps {k : Nat} {now : Instant} {r : Record}
      (hlast : t'.store.lastVersion = r.version.raw)
      (hlinks : t'.links = t.links)
      (hpending : ∀ j, t'.pendingOf j = if j = k then some r else t.pendingOf j)
      (hentered : ∀ j, t'.enteredOf j = t.enteredOf j)
      (hremovals : t'.removals = t.removals)
      (hget : ∀ id, t'.store.get? id = t.store.get? id)
      (hnext : nextNumber? t.store.lastVersion = some r.version.raw) :
      Effect t t' (.advance k now)
  /-- A creation enters its record. -/
  | enters {k : Nat} {now : Instant} {r : Record}
      (hlast : t'.store.lastVersion = t.store.lastVersion)
      (hlinks : t'.links = t.links ++ [⟨.creation k, r⟩])
      (hpending : ∀ j, t'.pendingOf j = if j = k then none else t.pendingOf j)
      (hentered : ∀ j, t'.enteredOf j = if j = k then some r else t.enteredOf j)
      (hremovals : t'.removals = t.removals)
      (hget : ∀ id, t'.store.get? id = if r.id = id then some r else t.store.get? id)
      (hwaiting : t.pendingOf k = some r) (hnew : t.enteredOf k = none) :
      Effect t t' (.advance k now)
  /-- A client's write takes place. -/
  | writes {client : Nat} {m : Mutation} {current next : Record} {now : Instant} {fields : Fields}
      (hlast : t'.store.lastVersion = next.version.raw)
      (hlinks : t'.links = t.links ++ [⟨.client client, next⟩])
      (hpending : ∀ j, t'.pendingOf j = t.pendingOf j)
      (hentered : ∀ j, t'.enteredOf j = t.enteredOf j)
      (hremovals : t'.removals = t.removals)
      (hget : ∀ id, t'.store.get? id = if current.id = id then some next else t.store.get? id)
      (hnext : nextNumber? t.store.lastVersion = some next.version.raw)
      (hcurrent : t.store.get? m.id = some current) (hversion : current.version = m.expected)
      (hdeed : m.deed = .write now fields)
      (hsuccessor : next = current.successor now fields next.version) :
      Effect t t' (.mutate client m)
  /-- A client's removal takes place. -/
  | removes {client : Nat} {m : Mutation} {current : Record}
      (hlast : t'.store.lastVersion = t.store.lastVersion)
      (hlinks : t'.links = t.links)
      (hpending : ∀ j, t'.pendingOf j = t.pendingOf j)
      (hentered : ∀ j, t'.enteredOf j = t.enteredOf j)
      (hremovals : t'.removals = t.removals ++ [(client, current)])
      (hget : ∀ id, t'.store.get? id = if m.id = id then none else t.store.get? id)
      (hcurrent : t.store.get? m.id = some current) (hversion : current.version = m.expected)
      (hdeed : m.deed = .delete) : Effect t t' (.mutate client m)

theorem Moves.effect {t t' : Traffic} {a : Action} (h : t.Moves a t') : t.Effect t' a := by
  cases h with
  | taken | rests =>
    exact .quiet rfl rfl (fun _ => rfl) (fun _ => rfl) rfl (fun _ => rfl)
  | asks hc | named hc | unnamed hc | unstamped hc =>
    refine .quiet rfl rfl (fun j => ?_) (fun j => ?_) rfl (fun _ => rfl)
    · simp only [pendingOf, Function.update_apply]
      split
      next hj => subst hj; simp [hc, Stage.pending?]
      next => rfl
    · simp only [enteredOf, Function.update_apply]
      split
      next hj => subst hj; simp [hc, Stage.entered?]
      next => rfl
  | @stamped k now fields id n hc hnext =>
    refine .stamps (r := .create now id fields ⟨n⟩) rfl rfl
      (fun j => ?_) (fun j => ?_) rfl (fun _ => rfl) hnext
    · by_cases hj : j = k <;> simp [pendingOf, hj, Stage.pending?]
    · by_cases hj : j = k <;> simp [enteredOf, hj, hc, Stage.entered?]
  | @enters k now fields r hc =>
    refine .enters (r := r) rfl ?_ (fun j => ?_) (fun j => ?_) ?_
      (fun id => Store.get?_enter r t.store id) ?_ ?_
    · simp [links, Entry.link?]
    · by_cases hj : j = k <;> simp [pendingOf, hj, Stage.pending?]
    · by_cases hj : j = k <;> simp [enteredOf, hj, Stage.entered?]
    · simp [removals, Entry.removal?]
    · simp [pendingOf, hc, Stage.pending?]
    · simp [enteredOf, hc, Stage.entered?]
  | @mutates client m answer s h =>
    cases h with
    | missing | stale | spent =>
      refine .quiet rfl ?_ (fun _ => rfl) (fun _ => rfl) ?_ (fun _ => rfl)
      · simp [links, Entry.link?]
      · simp [removals, Entry.removal?]
    | @written current now fields n hget hversion hdeed hnext =>
      obtain ⟨id, expected, deed⟩ := m
      subst hdeed
      refine @Effect.writes t _ client _ current (current.successor now fields ⟨n⟩) now fields
        rfl ?_ (fun _ => rfl) (fun _ => rfl) ?_ (fun id => ?_) hnext hget hversion rfl rfl
      · simp [links, Entry.link?]
      · simp [removals, Entry.removal?]
      · exact Store.get?_enter (current.successor now fields ⟨n⟩) _ id
    | @removed current hget hversion hdeed =>
      obtain ⟨id, expected, deed⟩ := m
      subst hdeed
      refine .removes rfl ?_ (fun _ => rfl) (fun _ => rfl) ?_ (fun other => ?_) hget hversion rfl
      · simp [links, Entry.link?]
      · simp [removals, Entry.removal?]
      · exact Store.get?_erase t.store id other

end Traffic

end VersionedStore
