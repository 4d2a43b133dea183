/-
  VersionedStore.Proofs.Update.Clients

  Any number of clients that run update requests and removals on one store,
  while others create records.

  A `System` is a store under traffic, the jobs of the clients, by number, and
  whatever lies outside, such as signals and the clock.  A request takes one
  observation at a time, by the same `next` that runs it alone; its writes and
  removals are steps of the traffic, and anything may happen in between.  A run
  is any list of events, so it is any interleaving of any number of clients.

  `Job.next_acts` says once what one step of a job can be.
-/
import VersionedStore.Proofs.Store.Traffic
import VersionedStore.Proofs.Update.Progress

namespace VersionedStore.Update

variable {ε τ α : Type}

-- ============================================================================
-- The surroundings of one client
-- ============================================================================

/-- Act on what is outside. -/
def onOutside (act : StateM ε α) : StateM (τ × ε) α := fun s =>
  ((act s.2).1, (s.1, (act s.2).2))

/-- Signals and the clock, from beside something that they do not touch. -/
def Watch.beside (w : Watch ε) : Watch (τ × ε) where
  isTriggered signal := onOutside (w.isTriggered signal)
  now := onOutside w.now
  sleep length := onOutside (w.sleep length)
  latest := w.latest

namespace Client

/-- A write or a removal of a client. -/
def mutate (client : Nat) (m : Mutation) :
    StateM (Traffic × ε) (Except StoreError WriteOutcome) := fun s =>
  ((m.perform s.1.store).1, (s.1.step (.mutate client m), s.2))

/-- A creation under the client's number, which is not taken yet, from its beginning to its
    end. -/
def create (client : Nat) (now : Instant) (fields : Fields) :
    StateM (Traffic × ε) (Except StoreError Record) := fun s =>
  ((Store.create now fields s.1.store).1,
    (s.1.after
      [.ask client fields, .advance client now, .advance client now, .advance client now], s.2))

/-- The store as a client sees it. -/
def records (client : Nat) (now : Instant) : RecordStore (Traffic × ε) where
  read id := fun s => ((Store.read id s.1.store).1, s)
  create := create client now
  write id expected fields := mutate client ⟨id, expected, .write now fields⟩
  delete id expected := mutate client ⟨id, expected, .delete⟩
  list := fun s => ((Store.list s.1.store).1, s)

/-- All that a client acts on. -/
def surroundings (watch : Watch ε) (client : Nat) (now : Instant) :
    Surroundings (Traffic × ε) :=
  ⟨records client now, watch.beside⟩

/-- The traffic comes to the same answer as the store, and to the same store. -/
theorem create_eq {client : Nat} {t : Traffic} (hclient : t.creations client = none)
    (now : Instant) (fields : Fields) (o : ε) :
    ((create client now fields (t, o)).2.1.creations client).bind (·.stage.answer?)
        = some (create client now fields (t, o)).1 ∧
      (create client now fields (t, o)).2.1.store = (Store.create now fields t.store).2 := by
  obtain ⟨hstore, hcreation⟩ := Traffic.after_creation hclient now fields
  obtain ⟨hanswer, hstore'⟩ := Prod.mk.inj (Creation.run_eq_create now fields t.store)
  refine ⟨?_, hstore.trans hstore'⟩
  show ((t.after _).creations client).bind (·.stage.answer?) = some (Store.create now fields _).1
  rw [hcreation, Option.bind_some, hanswer]

end Client

-- ============================================================================
-- Jobs
-- ============================================================================

/-- What a client is busy with. -/
inductive Job where
  | update (req : Request) (rules : Rules) (phase : Phase)
  /-- A removal, and its answer if it is over. -/
  | removal (id : RecordId) (expected : Version) (answer : Option (Except UpdateError Record))

/-- Take one step of a job. -/
def Job.next (around : Surroundings (Traffic × ε)) : Job → StateM (Traffic × ε) Job
  | .update req rules p => .update req rules <$> req.next rules around p
  | .removal id expected none =>
    (fun answer => .removal id expected (some answer)) <$> remove around id expected
  | .removal id expected (some answer) => pure (.removal id expected (some answer))

/-- Clients at work on one store. -/
structure System (ε : Type) where
  traffic : Traffic
  /-- The jobs taken up so far, by number. -/
  jobs : Nat → Option Job
  outside : ε

/-- One step of one of the clients, or of what is outside. -/
inductive Event (ε : Type) where
  /-- A creation is begun, unless its number is taken. -/
  | ask (creation : Nat) (fields : Fields)
  /-- A creation takes its next step. -/
  | advance (creation : Nat) (now : Instant)
  /-- A job is taken up, unless its number is taken. -/
  | request (job : Nat) (req : Request) (rules : Rules)
  | removal (job : Nat) (id : RecordId) (expected : Version)
  /-- A job takes its next step. -/
  | work (job : Nat) (now : Instant)
  /-- Something else happens: a signal is triggered, or time passes. -/
  | drift (change : ε → ε)

namespace System

/-- A store without records, before its first client. -/
def start (outside : ε) : System ε := ⟨.start, fun _ => none, outside⟩

/-- Take up a job, unless its number is taken. -/
def take (y : System ε) (j : Nat) (job : Job) : System ε :=
  match y.jobs j with
  | none => { y with jobs := Function.update y.jobs j (some job) }
  | some _ => y

/-- Let something happen. -/
def step (y : System ε) (watch : Watch ε) : Event ε → System ε
  | .ask k fields => { y with traffic := y.traffic.step (.ask k fields) }
  | .advance k now => { y with traffic := y.traffic.step (.advance k now) }
  | .request j req rules => y.take j (.update req rules .entering)
  | .removal j id expected => y.take j (.removal id expected none)
  | .work j now =>
    match y.jobs j with
    | none => y
    | some job =>
      let r := job.next (Client.surroundings watch j now) (y.traffic, y.outside)
      ⟨r.2.1, Function.update y.jobs j (some r.1), r.2.2⟩
  | .drift change => { y with outside := change y.outside }

theorem step_work_of_none {watch : Watch ε} {y : System ε} {j : Nat} {now : Instant}
    (hj : y.jobs j = none) : y.step watch (.work j now) = y := by
  simp [step, hj]

theorem step_work_of_some {watch : Watch ε} {y : System ε} {j : Nat} {now : Instant} {job : Job}
    (hj : y.jobs j = some job) :
    y.step watch (.work j now)
      = ⟨(job.next (Client.surroundings watch j now) (y.traffic, y.outside)).2.1,
        Function.update y.jobs j
          (some (job.next (Client.surroundings watch j now) (y.traffic, y.outside)).1),
        (job.next (Client.surroundings watch j now) (y.traffic, y.outside)).2.2⟩ := by
  simp [step, hj]

/-- The system after events, one after the other. -/
def run (watch : Watch ε) (outside : ε) (events : List (Event ε)) : System ε :=
  events.foldl (·.step watch ·) (start outside)

end System

-- ============================================================================
-- What a step of a job can be
-- ============================================================================

/-- What a removal comes to, by the answer of the store. -/
def afterRemoval (id : RecordId) (expected : Version) :
    Except StoreError WriteOutcome → Except UpdateError Record
  | .error e => .error (.storage e)
  | .ok (.committed removed) => .ok removed
  | .ok (.versionMismatch current) => .error (.versionConflict ⟨id, expected, current, 1⟩)
  | .ok .notFound => .error (.notFound id)

theorem remove_eq {σ : Type} (around : Surroundings σ) (id : RecordId) (expected : Version)
    (s : σ) : remove around id expected s
      = (afterRemoval id expected (around.store.delete id expected s).1,
        (around.store.delete id expected s).2) := by
  change (match (around.store.delete id expected s).1 with
    | .error e => pure (Except.error (.storage e))
    | .ok (.committed removed) => pure (.ok removed)
    | .ok (.versionMismatch current) =>
      pure (.error (.versionConflict ⟨id, expected, current, 1⟩))
    | .ok .notFound => pure (.error (.notFound id)) : StateM σ (Except UpdateError Record))
      (around.store.delete id expected s).2 = _
  cases (around.store.delete id expected s).1 with
  | error e => rfl
  | ok outcome => cases outcome <;> rfl

/-- What a step of a job can be: the job after it, and the traffic after it. -/
inductive Job.Acts (client : Nat) (t : Traffic) : Job → Job → Traffic → Prop where
  | enters {req : Request} {rules : Rules} (verdict : Option CancelReason) :
      Acts client t (.update req rules .entering) (.update req rules (req.afterEntry verdict)) t
  | reads {req : Request} {rules : Rules} :
      Acts client t (.update req rules .reading)
        (.update req rules (req.afterRead rules (.ok (t.store.get? req.id)))) t
  | polls {req : Request} {rules : Rules} {attempt : Attempt} (verdict : Option CancelReason) :
      Acts client t (.update req rules (.ready attempt))
        (.update req rules (req.afterReady attempt verdict)) t
  | writes {req : Request} {rules : Rules} {attempt : Attempt} {m : Mutation} {now : Instant}
      (hm : m = ⟨req.id, attempt.expected, .write now attempt.candidate⟩) :
      Acts client t (.update req rules (.writing attempt))
        (.update req rules (req.afterWrite rules attempt (m.perform t.store).1))
        (t.step (.mutate client m))
  | waits {req : Request} {rules : Rules} {current : Record} {made left : Nat}
      (outcome : Except ClockError (Option CancelReason)) :
      Acts client t (.update req rules (.waiting current made left))
        (.update req rules (req.afterWait rules current made left outcome)) t
  | rechecks {req : Request} {rules : Rules} {current : Record} {made left : Nat}
      (verdict : Option CancelReason) :
      Acts client t (.update req rules (.rechecking current made left))
        (.update req rules (req.afterRecheck rules current made left verdict)) t
  | removes {id : RecordId} {expected : Version} {m : Mutation}
      (hm : m = ⟨id, expected, .delete⟩) :
      Acts client t (.removal id expected none)
        (.removal id expected (some (afterRemoval id expected (m.perform t.store).1)))
        (t.step (.mutate client m))
  /-- The job is over. -/
  | rests {job : Job} : Acts client t job job t

/-- A step that leaves the traffic alone. -/
theorem Job.Acts.quiet {client : Nat} {t t' : Traffic} {job job' : Job}
    (h : job.Acts client t job' t) (ht : t' = t) : job.Acts client t job' t' := by
  rw [ht]
  exact h

theorem Watch.keeps_beside (w : Watch ε) (t : τ) : w.beside.Keeps fun s : τ × ε => s.1 = t :=
  ⟨fun _ _ h => h, fun _ h => h, fun _ _ h => h⟩

theorem Job.next_acts (watch : Watch ε) (client : Nat) (now : Instant) (job : Job) (t : Traffic)
    (o : ε) :
    job.Acts client t (job.next (Client.surroundings watch client now) (t, o)).1
      (job.next (Client.surroundings watch client now) (t, o)).2.1 := by
  have hpoll : ∀ g, ((watch.beside (τ := Traffic)).poll g (t, o)).2.1 = t :=
    fun g => (watch.keeps_beside t).poll g (t, o) rfl
  have hwait : ∀ g d, ((watch.beside (τ := Traffic)).wait g d (t, o)).2.1 = t :=
    fun g d => (watch.keeps_beside t).wait g d (t, o) rfl
  cases job with
  | removal id expected answer =>
    cases answer with
    | some answer => exact .rests
    | none =>
      have hnext :
          Job.next (Client.surroundings watch client now) (.removal id expected none) (t, o)
            = (.removal id expected
                (some (remove (Client.surroundings watch client now) id expected (t, o)).1),
              (remove (Client.surroundings watch client now) id expected (t, o)).2) := rfl
      rw [hnext, remove_eq]
      exact .removes rfl
  | update req rules p =>
    cases p with
    | entering => exact (Acts.enters _).quiet (hpoll req.guard)
    | reading => exact .reads
    | ready attempt => exact (Acts.polls _).quiet (hpoll req.guard)
    | writing attempt => exact .writes rfl
    | waiting current made left =>
      exact (Acts.waits _).quiet (hwait req.guard rules.policy.backoff)
    | rechecking current made left => exact (Acts.rechecks _).quiet (hpoll req.guard)
    | finished result => exact .rests

end VersionedStore.Update
