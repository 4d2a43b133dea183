/-
  VersionedStore.Proofs.Database.Operations

  The operations of a database, step by step.

  An `Order` is what a client asks for; `Order.run` carries it out by the
  operation of the database.  A `Progress` is how far an order has come between
  two steps, and each step is one call of the store or one look at the signals and
  the clock, so this is the grain at which the operations of several clients
  interleave.  The writers of a simulated conflict take their steps in any order,
  but none goes on before all have read.

  `Order.reaches_run` says that an order that nobody interrupts comes to just what
  the operation of the database comes to, so whatever holds of all runs holds of the
  operations (`Usage.exists_operation`).
-/
import Mathlib.Algebra.GroupWithZero.Nat
import Mathlib.Logic.Relation
import VersionedStore.Proofs.Store.Calls
import VersionedStore.Proofs.Update.Progress
import VersionedStore.Simulation

namespace VersionedStore.Database

open Update

-- ============================================================================
-- Orders and replies
-- ============================================================================

/-- What a client may ask of a database.  Updates, replacements, patches and adjustments are
    executions of a request. -/
inductive Order where
  | create (fields : Fields)
  | get (id : RecordId)
  | list
  | execute (request : Request)
  | delete (id : RecordId) (expected : Version)
  | seedCatalog
  /-- Race a number of writers on a record. -/
  | simulate (id : RecordId) (writers : Nat)

/-- What an operation returns. -/
inductive Reply where
  /-- A record that was created or removed. -/
  | record (r : Record)
  | found (r : Option Record)
  | records (rs : List Record)
  | committed (done : Committed)
  | report (report : Simulation.Report)

/-- What came of an order. -/
abbrev Outcome := Except Failure Reply

/-- Carry an order out. -/
def Order.run {σ : Type} (db : Database σ) : Order → Action σ Reply
  | .create fields => .record <$> db.create fields
  | .get id => .found <$> db.get id
  | .list => .records <$> db.list
  | .execute request => .committed <$> db.execute request
  | .delete id expected => .record <$> db.delete id expected
  | .seedCatalog => .records <$> db.seedCatalog
  | .simulate id n => .report <$> Simulation.run db id n

-- ============================================================================
-- Steps
-- ============================================================================

/-- How far an order has come. -/
inductive Progress where
  /-- A record is being created; its fields were accepted. -/
  | creating (c : Creation)
  | getting (id : RecordId)
  | listing
  | executing (request : Request) (phase : Phase)
  | deleting (id : RecordId) (expected : Version)
  /-- Records were created, another one is being created, and more are to follow. -/
  | seeding (made : List Record) (c : Creation) (left : List Fields)
  /-- About to look at the record that writers are to race for. -/
  | looking (id : RecordId) (writers : Nat)
  | racing (race : Simulation.Race) (writers : List Simulation.Writer)
  | ended (outcome : Outcome)

/-- The end of an order, by the answer of the store. -/
def Progress.answered {α : Type} (reply : α → Reply) : Except StoreError α → Progress
  | .ok a => .ended (.ok (reply a))
  | .error e => .ended (.error (.storage e))

/-- The end of an order, by the result of a request. -/
def Progress.resulted {α : Type} (reply : α → Reply) : Except UpdateError α → Progress
  | .ok a => .ended (.ok (reply a))
  | .error e => .ended (.error (.ofUpdateError e))

/-- Begin a creation, if the fields are acceptable. -/
def Progress.accept (c : Constraints) (fields : Fields) (begun : Creation → Progress) : Progress :=
  match c.validate fields with
  | .ok () => begun ⟨fields, .asked⟩
  | .error reason => .ended (.error (.validation none reason))

/-- Go on with the records that are still to be created. -/
def Progress.seed (c : Constraints) (made : List Record) : List Fields → Progress
  | [] => .ended (.ok (.records made))
  | fields :: left => .accept c fields fun creation => .seeding made creation left

/-- Go on with a race, unless all writers are done.  If some fail, the first of them decides. -/
def Progress.gather (race : Simulation.Race) (writers : List Simulation.Writer) : Progress :=
  match writers.mapM Simulation.Writer.outcome? with
  | none => .racing race writers
  | some outcomes =>
    match (outcomes.mapM fun outcome => outcome : Except Failure (List Simulation.Sighting)) with
    | .ok details => .ended (.ok (.report (.of race.id details)))
    | .error failure => .ended (.error failure)

/-- What follows the look at the record of a race: the record has to be a product. -/
def Progress.looked (id : RecordId) (writers : Nat) : Except StoreError (Option Record) → Progress
  | .error e => .ended (.error (.storage e))
  | .ok none => .ended (.error (.notFound id))
  | .ok (some base) =>
    match Product.ofRecord base with
    | .error reason => .ended (.error (.validation (some id) reason))
    | .ok product => .gather ⟨id, product.price⟩ (Simulation.writers writers)

/-- Take an order up.  Fields that are not acceptable end it at once. -/
def Order.begin (c : Constraints) : Order → Progress
  | .create fields => .accept c fields .creating
  | .get id => .getting id
  | .list => .listing
  | .execute request => .executing request .entering
  | .delete id expected => .deleting id expected
  | .seedCatalog => .seed c [] Catalog.samples
  | .simulate id writers => .looking id writers

/-- Whether a writer has to wait for others to read. -/
def waits (writers : List Simulation.Writer) (w : Simulation.Writer) : Bool :=
  match w.stage with
  | .ready _ => writers.any fun other => match other.stage with
    | .reading => true
    | _ => false
  | _ => false

/-- Take a step of a creation, and go on by the answer once there is one. -/
def Progress.proceed (onward : Creation → Progress)
    (finish : Except StoreError Record → Progress) (c : Creation) : StateM World Progress :=
  (fun c => match c.stage.answer? with
    | none => onward c
    | some answer => finish answer) <$> World.onStore fun now => c.next now

/-- Take the next step of an order.  In a race it is a step of the writer that is picked. -/
def Progress.next (rules : Rules) (pick : Nat) : Progress → StateM World Progress
  | .creating c => proceed .creating (answered .record) c
  | .getting id => answered .found <$> World.records.read id
  | .listing => answered .records <$> World.records.list
  | .executing request phase =>
    (fun phase => match phase.result? with
      | none => .executing request phase
      | some result => resulted .committed result)
      <$> request.next rules World.surroundings phase
  | .deleting id expected => resulted .record <$> remove World.surroundings id expected
  | .seeding made c left =>
    proceed (.seeding made · left) (fun
      | .ok r => seed rules.constraints (made ++ [r]) left
      | .error e => .ended (.error (.storage e))) c
  | .looking id writers => looked id writers <$> World.records.read id
  | .racing race writers =>
    match writers[pick]? with
    | none => pure (.racing race writers)
    | some w =>
      if waits writers w then pure (.racing race writers)
      else (fun w => gather race (writers.set pick w)) <$> w.step ⟨rules, World.surroundings⟩ race
  | .ended outcome => pure (.ended outcome)

-- ============================================================================
-- Clients
-- ============================================================================

/-- A database in use. -/
structure Usage where
  world : World
  /-- The orders taken up so far, by number. -/
  orders : Nat → Option Progress

/-- What happens to a database. -/
inductive Usage.Event where
  /-- An order is taken up, unless its number is taken. -/
  | order (k : Nat) (order : Order)
  /-- An order takes its next step. -/
  | work (k pick : Nat)
  /-- The clock and the signals move. -/
  | drift (clock : Time) (triggered : List Signal)

namespace Usage

/-- An empty database, before its first order. -/
def start (clock : Time) : Usage := ⟨.startingAt clock, fun _ => none⟩

/-- Let something happen. -/
def step (rules : Rules) (u : Usage) : Event → Usage
  | .order k order =>
    match u.orders k with
    | none =>
      { u with orders := Function.update u.orders k (some (order.begin rules.constraints)) }
    | some _ => u
  | .work k pick =>
    match u.orders k with
    | none => u
    | some p =>
      ⟨(p.next rules pick u.world).2,
        Function.update u.orders k (some (p.next rules pick u.world).1)⟩
  | .drift clock triggered => { u with world := ⟨u.world.store, clock, triggered⟩ }

theorem step_order_of_none {u : Usage} {k : Nat} (hk : u.orders k = none) (rules : Rules)
    (order : Order) : u.step rules (.order k order)
      = { u with
          orders := Function.update u.orders k (some (order.begin rules.constraints)) } := by
  simp [step, hk]

theorem step_order_of_some {u : Usage} {k : Nat} {p : Progress} (hk : u.orders k = some p)
    (rules : Rules) (order : Order) : u.step rules (.order k order) = u := by
  simp [step, hk]

theorem step_work_of_none {u : Usage} {k : Nat} (hk : u.orders k = none) (rules : Rules)
    (pick : Nat) : u.step rules (.work k pick) = u := by
  simp [step, hk]

theorem step_work_of_some {u : Usage} {k : Nat} {p : Progress} (hk : u.orders k = some p)
    (rules : Rules) (pick : Nat) : u.step rules (.work k pick)
      = ⟨(p.next rules pick u.world).2,
        Function.update u.orders k (some (p.next rules pick u.world).1)⟩ := by
  simp [step, hk]

/-- The database after events, one after the other. -/
def run (rules : Rules) (clock : Time) (events : List Event) : Usage :=
  events.foldl (step rules) (start clock)

end Usage

-- ============================================================================
-- An order that nobody interrupts
-- ============================================================================

/-- One step of an order leads from a state to another. -/
def Progress.Step (rules : Rules) (s s' : Progress × World) : Prop :=
  ∃ pick, s.1.next rules pick s.2 = s'

/-- Steps of an order, one after the other and nothing in between. -/
abbrev Progress.Reaches (rules : Rules) : Progress × World → Progress × World → Prop :=
  Relation.ReflTransGen (Progress.Step rules)

section Alone

variable {rules : Rules} {w : World}

theorem run_bind {σ ε α β : Type} (act : ExceptT ε (StateM σ) α) (f : α → ExceptT ε (StateM σ) β)
    (s : σ) : (act >>= f).run s = match act.run s with
      | (.ok a, s') => (f a).run s'
      | (.error e, s') => (.error e, s') := by
  have hbind : ∀ {γ δ : Type} (x : StateM σ γ) (g : γ → StateM σ δ), (x >>= g) s
      = g (x s).1 (x s).2 := fun _ _ => rfl
  rw [ExceptT.run_bind, hbind]
  rcases act.run s with ⟨e | a, s'⟩ <;> rfl

theorem run_bind_eq_ok_iff {σ ε α β : Type} {act : ExceptT ε (StateM σ) α}
    {f : α → ExceptT ε (StateM σ) β} {s s' : σ} {b : β} :
    (act >>= f).run s = (.ok b, s') ↔
      ∃ a t, act.run s = (.ok a, t) ∧ (f a).run t = (.ok b, s') := by
  rw [run_bind]
  rcases act.run s with ⟨e | a, t⟩
  · constructor
    · rintro ⟨⟩
    · rintro ⟨a, u, ⟨⟩, -⟩
  · constructor
    · intro h
      exact ⟨a, t, rfl, h⟩
    · rintro ⟨_, _, ⟨⟩, h⟩
      exact h

theorem run_map {σ α β : Type} (f : α → β) (act : Action σ α) (s : σ) :
    (f <$> act).run s = ((act.run s).1.map f, (act.run s).2) := by
  rw [ExceptT.run_map]
  rfl

theorem Progress.proceed_eq {onward : Creation → Progress}
    {finish : Except StoreError Record → Progress} {c c' : Creation} {s : Store}
    (h : c.next w.instant w.store = (c', s)) :
    Progress.proceed onward finish c w
      = (match c'.stage.answer? with
        | none => onward c'
        | some answer => finish answer, { w with store := s }) := by
  have hproceed : Progress.proceed onward finish c w
      = (match (c.next w.instant w.store).1.stage.answer? with
        | none => onward (c.next w.instant w.store).1
        | some answer => finish answer, { w with store := (c.next w.instant w.store).2 }) := rfl
  rw [hproceed, h]

/-- A creation whose steps lead from one to the next comes to what the store's creation comes
    to. -/
theorem creation_reaches {onward : Creation → Progress}
    {finish : Except StoreError Record → Progress}
    (hnext : ∀ c pick, (onward c).next rules pick = Progress.proceed onward finish c)
    (fields : Fields) (w : World) :
    Progress.Reaches rules (onward ⟨fields, .asked⟩, w)
      (finish (World.records.create fields w).1, (World.records.create fields w).2) := by
  have hstep : ∀ {c c' : Creation} {w : World} {s : Store}, c.next w.instant w.store = (c', s) →
      Progress.Step rules (onward c, w)
        (match c'.stage.answer? with
          | none => onward c'
          | some answer => finish answer, { w with store := s }) := by
    intro c c' w s hc
    refine ⟨0, ?_⟩
    rw [hnext, Progress.proceed_eq hc]
  -- the three steps of the creation, of which the last ones may do nothing
  obtain ⟨hanswer, hstore⟩ := Prod.mk.inj (Creation.run_eq_create w.instant fields w.store)
  rcases hfirst : Creation.next w.instant ⟨fields, .asked⟩ w.store with ⟨c₁, s₁⟩
  rcases hsecond : Creation.next w.instant c₁ s₁ with ⟨c₂, s₂⟩
  rcases hthird : Creation.next w.instant c₂ s₂ with ⟨c₃, s₃⟩
  rw [Creation.run_of_next hfirst hsecond, hthird] at hanswer hstore
  have hcreate : World.records.create fields w
      = ((Store.create w.instant fields w.store).1,
        { w with store := (Store.create w.instant fields w.store).2 }) := rfl
  rw [hcreate, ← hstore]
  have h₁ := hstep hfirst
  cases hc₁ : c₁.stage.answer? with
  | some answer =>
    rw [Creation.next_of_answer (Option.isSome_of_eq_some hc₁)] at hsecond
    obtain ⟨rfl, rfl⟩ := Prod.mk.inj hsecond
    rw [Creation.next_of_answer (Option.isSome_of_eq_some hc₁)] at hthird
    obtain ⟨rfl, rfl⟩ := Prod.mk.inj hthird
    rw [hanswer] at h₁
    exact .single h₁
  | none =>
    rw [hc₁] at h₁
    have h₂ := @hstep c₁ c₂ { w with store := s₁ } s₂ hsecond
    refine .head h₁ ?_
    cases hc₂ : c₂.stage.answer? with
    | some answer =>
      rw [Creation.next_of_answer (Option.isSome_of_eq_some hc₂)] at hthird
      obtain ⟨rfl, rfl⟩ := Prod.mk.inj hthird
      rw [hanswer] at h₂
      exact .single h₂
    | none =>
      rw [hc₂] at h₂
      have h₃ := @hstep c₂ c₃ { w with store := s₂ } s₃ hthird
      rw [hanswer] at h₃
      exact .head h₂ (.single h₃)

theorem executing_reaches (request : Request) (p : Phase) (w : World) (hp : p.result? = none) :
    Progress.Reaches rules (.executing request p, w)
      (.resulted .committed (request.runFrom rules World.surroundings p w).1,
        (request.runFrom rules World.surroundings p w).2) := by
  induction p, w using Request.run_induction request rules World.surroundings with
  | finished result w => contradiction
  | next p w hunder ih =>
    have hstep : Progress.Step rules (.executing request p, w)
        (match (request.next rules World.surroundings p w).1.result? with
          | none => .executing request (request.next rules World.surroundings p w).1
          | some result => .resulted .committed result,
          (request.next rules World.surroundings p w).2) := ⟨0, rfl⟩
    rw [Request.runFrom_next _ hunder]
    generalize request.next rules World.surroundings p w = next at hstep ih ⊢
    obtain ⟨p', w'⟩ := next
    cases hp' : p'.result? with
    | none =>
      rw [hp'] at hstep
      exact .head hstep (ih hp')
    | some result =>
      obtain rfl : p' = .finished result := by
        cases p' <;> simp_all [Phase.result?]
      rw [Request.runFrom_finished]
      exact .single hstep

theorem create_run (fields : Fields) (w : World) :
    (create ⟨rules, World.surroundings⟩ fields).run w
      = match rules.constraints.validate fields with
        | .ok () => ((World.records.create fields w).1.mapError .storage,
          (World.records.create fields w).2)
        | .error reason => (.error (.validation none reason), w) := by
  unfold create
  cases rules.constraints.validate fields <;> rfl

theorem seed_reaches (left : List Fields) (made : List Record) (w : World) :
    Progress.Reaches rules (.seed rules.constraints made left, w)
      (.ended (((left.mapM (create ⟨rules, World.surroundings⟩)).run w).1.map
          fun rs => .records (made ++ rs)),
        ((left.mapM (create ⟨rules, World.surroundings⟩)).run w).2) := by
  induction left generalizing made w with
  | nil =>
    have hnil : ((([] : List Fields).mapM (create ⟨rules, World.surroundings⟩)).run w)
        = (.ok [], w) := rfl
    rw [hnil, Progress.seed, Except.map, List.append_nil]
  | cons fields left ih =>
    rw [List.mapM_cons, run_bind, create_run, Progress.seed, Progress.accept]
    cases rules.constraints.validate fields with
    | error reason => exact .refl
    | ok _ =>
      have hcreate := creation_reaches (fun c pick => rfl :
        ∀ c pick, (Progress.seeding made c left).next rules pick = _) fields w
      refine hcreate.trans ?_
      rcases World.records.create fields w with ⟨e | r, w'⟩
      · exact .refl
      · have hrest := ih (made ++ [r]) w'
        have hnext : (List.cons r <$> left.mapM (create ⟨rules, World.surroundings⟩)).run w'
            = _ := run_map _ _ _
        rw [← bind_pure_comp] at hnext
        have hok : (Except.ok r).mapError Failure.storage = .ok r := rfl
        simp only [hok, hnext]
        generalize (left.mapM (create ⟨rules, World.surroundings⟩)).run w' = rest at hrest ⊢
        obtain ⟨e | rs, w''⟩ := rest
        · exact hrest
        · have hlist := List.append_cons made r rs
          change Progress.Reaches rules _ (.ended (.ok (.records (made ++ r :: rs))), w'')
          rw [hlist]
          exact hrest

-- ============================================================================
-- A race that nobody interrupts
-- ============================================================================

section Race

open Simulation (Race Writer Sighting)

variable {race : Race}

/-- Whether a writer is about to read. -/
def isReading (w : Writer) : Bool :=
  match w.stage with
  | .reading => true
  | _ => false

theorem waits_of_none {writers : List Writer} (h : ∀ w ∈ writers, isReading w = false)
    (w : Writer) : waits writers w = false := by
  unfold waits
  split
  next =>
    rw [List.any_eq_false]
    intro other hother
    have hnot := h other hother
    unfold isReading at hnot
    simpa using hnot
  next => rfl

theorem gather_of_none {before after : List Writer} {w : Writer} (h : w.outcome? = none) :
    Progress.gather race (before ++ w :: after) = .racing race (before ++ w :: after) := by
  have hnone : (before ++ w :: after).mapM Writer.outcome? = none := by
    rw [List.mapM_append, List.mapM_cons, h]
    cases before.mapM Writer.outcome? <;> rfl
  rw [Progress.gather, hnone]

/-- A writer that need not wait takes its step. -/
theorem Progress.next_racing {writers : List Writer} {pick : Nat} {w : Writer}
    (hpick : writers[pick]? = some w) (hwaits : waits writers w = false) (s : World) :
    (racing race writers).next rules pick s
      = (gather race (writers.set pick (w.step ⟨rules, World.surroundings⟩ race s).1),
        (w.step ⟨rules, World.surroundings⟩ race s).2) := by
  simp only [next, hpick, hwaits]
  rfl

/-- In a race nothing happens, or one of the writers takes a step. -/
theorem Progress.next_racing_cases (race : Race) (writers : List Writer) (pick : Nat)
    (s : World) :
    (racing race writers).next rules pick s = (racing race writers, s) ∨
      ∃ w, writers[pick]? = some w ∧ waits writers w = false ∧
        (racing race writers).next rules pick s
          = (gather race (writers.set pick (w.step ⟨rules, World.surroundings⟩ race s).1),
            (w.step ⟨rules, World.surroundings⟩ race s).2) := by
  cases hpick : writers[pick]? with
  | none =>
    left
    simp only [next, hpick]
    rfl
  | some w =>
    cases hwaits : waits writers w with
    | true =>
      left
      simp only [next, hpick, hwaits]
      rfl
    | false => exact .inr ⟨w, rfl, hwaits, next_racing hpick hwaits s⟩

/-- A step of the writer that is next in the list. -/
theorem racing_step {before after : List Writer} {w : Writer} (hunder : w.outcome? = none)
    (hwaits : waits (before ++ w :: after) w = false) (s : World) :
    Progress.Step rules (.gather race (before ++ w :: after), s)
      (.gather race (before ++ (w.step ⟨rules, World.surroundings⟩ race s).1 :: after),
        (w.step ⟨rules, World.surroundings⟩ race s).2) := by
  refine ⟨before.length, ?_⟩
  rw [gather_of_none hunder]
  have hpick : (before ++ w :: after)[before.length]? = some w := by simp
  rw [Progress.next_racing hpick hwaits, List.set_append_right _ _ (Nat.le_refl _), Nat.sub_self,
    List.set_cons_zero]

theorem isReading_step {w : Writer} (h : isReading w = false) (s : World) :
    isReading (w.step ⟨rules, World.surroundings⟩ race s).1 = false := by
  obtain ⟨number, stage⟩ := w
  cases stage with
  | reading => contradiction
  | ready seen =>
    match seen with
    | .error e => rfl
    | .ok none => rfl
    | .ok (some base) => rfl
  | updating request phase =>
    change isReading ⟨number, race.proceed number request
      (request.next rules World.surroundings phase s).1⟩ = false
    unfold Race.proceed
    split <;> rfl
  | done outcome => rfl

theorem finish_of_outcome {σ : Type} (db : Database σ) {w : Writer}
    {outcome : Except Failure Sighting} (h : w.outcome? = some outcome) (s : σ) :
    w.finish db race s = (outcome, s) := by
  rw [Writer.finish]
  split
  next other hother => rw [Option.some.inj (hother.symm.trans h)]
  next hnone => exact absurd (hnone.symm.trans h) (by simp)

theorem finish_of_none {σ : Type} (db : Database σ) {w : Writer} (h : w.outcome? = none) (s : σ) :
    w.finish db race s = (w.step db race s).1.finish db race (w.step db race s).2 := by
  conv => lhs; rw [Writer.finish]
  split
  next other hother => exact absurd (hother.symm.trans h) (by simp)
  next => rfl

/-- Once all have read, a writer can go on to its end. -/
theorem finish_reaches {before after : List Writer}
    (hbefore : ∀ w ∈ before, isReading w = false) (hafter : ∀ w ∈ after, isReading w = false)
    (w : Writer) (hw : isReading w = false) (s : World) :
    ∃ w' : Writer, isReading w' = false ∧
      w'.outcome? = some (w.finish ⟨rules, World.surroundings⟩ race s).1 ∧
      Progress.Reaches rules (.gather race (before ++ w :: after), s)
        (.gather race (before ++ w' :: after),
          (w.finish ⟨rules, World.surroundings⟩ race s).2) := by
  induction hrank : w.rank rules using Nat.strongRecOn generalizing w s with
  | ind n ih =>
    cases hunder : w.outcome? with
    | some outcome =>
      rw [finish_of_outcome _ hunder]
      exact ⟨w, hw, hunder, .refl⟩
    | none =>
      have hwaits : waits (before ++ w :: after) w = false := by
        refine waits_of_none (fun other hother => ?_) w
        rcases List.mem_append.1 hother with h | h
        · exact hbefore other h
        · rcases List.mem_cons.1 h with rfl | h
          · exact hw
          · exact hafter other h
      have hlt := Writer.rank_step_lt ⟨rules, World.surroundings⟩ race w s hunder
      rw [finish_of_none _ hunder]
      obtain ⟨w', hw', houtcome, hreaches⟩ :=
        ih _ (hrank ▸ hlt) _ (isReading_step hw s) _ rfl
      exact ⟨w', hw', houtcome, .head (racing_step hunder hwaits s) hreaches⟩

/-- Let writers take a step each, one after the other. -/
def stepAll (rules : Rules) (race : Race) (writers : List Writer) : StateM World (List Writer) :=
  writers.mapM (Writer.step ⟨rules, World.surroundings⟩ race)

/-- Let writers go on to their ends, one after the other. -/
def finishAll (rules : Rules) (race : Race) (writers : List Writer) :
    StateM World (List (Except Failure Sighting)) :=
  writers.mapM (Writer.finish ⟨rules, World.surroundings⟩ race)

theorem mapM_cons_eq {σ α β : Type} (f : α → StateM σ β) (a : α) (rest : List α) (s : σ) :
    (a :: rest).mapM f s
      = ((f a s).1 :: (rest.mapM f (f a s).2).1, (rest.mapM f (f a s).2).2) := by
  rw [List.mapM_cons]
  rfl

/-- Once all have read, the writers can go on to their ends one after the other. -/
theorem finishAll_reaches (rest before : List Writer)
    (hbefore : ∀ w ∈ before, isReading w = false) (hrest : ∀ w ∈ rest, isReading w = false)
    (s : World) :
    ∃ rest' : List Writer,
      rest'.mapM Writer.outcome? = some (finishAll rules race rest s).1 ∧
      Progress.Reaches rules (.gather race (before ++ rest), s)
        (.gather race (before ++ rest'), (finishAll rules race rest s).2) := by
  induction rest generalizing before s with
  | nil => exact ⟨[], rfl, .refl⟩
  | cons w rest ih =>
    have htail : ∀ other ∈ rest, isReading other = false :=
      fun other hother => hrest other (List.mem_cons_of_mem w hother)
    obtain ⟨w', hw', houtcome, hreaches⟩ :=
      @finish_reaches rules race before rest hbefore htail w (hrest w List.mem_cons_self) s
    have hbefore' : ∀ other ∈ before ++ [w'], isReading other = false := by
      intro other hother
      rcases List.mem_append.1 hother with h | h
      · exact hbefore other h
      · exact List.mem_singleton.1 h ▸ hw'
    obtain ⟨rest', houtcomes, hreaches'⟩ :=
      ih (before ++ [w']) hbefore' htail (w.finish ⟨rules, World.surroundings⟩ race s).2
    rw [List.append_assoc, List.append_assoc] at hreaches'
    rw [finishAll, mapM_cons_eq]
    refine ⟨w' :: rest', ?_, hreaches.trans hreaches'⟩
    rw [List.mapM_cons, houtcome, houtcomes]
    rfl

/-- The writers can read one after the other. -/
theorem stepAll_reaches (rest before : List Writer) (hrest : ∀ w ∈ rest, isReading w = true)
    (s : World) :
    (∀ w ∈ (stepAll rules race rest s).1, isReading w = false) ∧
      Progress.Reaches rules (.gather race (before ++ rest), s)
        (.gather race (before ++ (stepAll rules race rest s).1),
          (stepAll rules race rest s).2) := by
  induction rest generalizing before s with
  | nil => exact ⟨fun _ hw => (List.not_mem_nil hw).elim, .refl⟩
  | cons w rest ih =>
    obtain ⟨number, stage⟩ := w
    obtain rfl : stage = .reading := by
      have hreading := hrest ⟨number, stage⟩ List.mem_cons_self
      unfold isReading at hreading
      split at hreading
      next h => exact h
      next => contradiction
    have hstep : Progress.Step rules (.gather race (before ++ ⟨number, .reading⟩ :: rest), s) _ :=
      racing_step rfl rfl s
    obtain ⟨hready, hreaches⟩ := ih
      (before ++ [((⟨number, .reading⟩ : Writer).step ⟨rules, World.surroundings⟩ race s).1])
      (fun other hother => hrest other (List.mem_cons_of_mem _ hother))
      ((⟨number, .reading⟩ : Writer).step ⟨rules, World.surroundings⟩ race s).2
    rw [List.append_assoc, List.append_assoc] at hreaches
    rw [stepAll, mapM_cons_eq]
    refine ⟨fun other hother => ?_, .head hstep hreaches⟩
    rcases List.mem_cons.1 hother with rfl | h
    · rfl
    · exact hready other h

end Race

/-- Where one of the terms of a sum is replaced, the sum changes by the difference. -/
theorem sum_map_set {α : Type} (f : α → Nat) {l : List α} {k : Nat} {a : α} (hk : l[k]? = some a)
    (b : α) : ((l.set k b).map f).sum + f a = (l.map f).sum + f b := by
  induction l generalizing k with
  | nil => contradiction
  | cons c l ih =>
    cases k with
    | zero =>
      obtain rfl := Option.some.inj hk
      rw [List.set_cons_zero, List.map_cons, List.map_cons, List.sum_cons, List.sum_cons]
      omega
    | succ k =>
      have hrest := ih hk
      rw [List.set_cons_succ, List.map_cons, List.map_cons, List.sum_cons, List.sum_cons]
      omega

/-- The report on a race, by what came of its writers. -/
theorem report_run {σ : Type} (db : Database σ) (race : Simulation.Race) (n : Nat) (s : σ) :
    (do
      let outcomes ← Simulation.play db race n
      let details ← (outcomes.mapM fun outcome => outcome :
        Except Failure (List Simulation.Sighting))
      return .of race.id details : Action σ Simulation.Report).run s
      = (((Simulation.play db race n s).1.mapM fun outcome => outcome).map (.of race.id),
        (Simulation.play db race n s).2) := by
  have hplay : (liftM (Simulation.play db race n) : Action σ _).run s
      = (.ok (Simulation.play db race n s).1, (Simulation.play db race n s).2) := rfl
  rw [run_bind, hplay]
  rcases Simulation.play db race n s with ⟨outcomes, s'⟩
  dsimp only
  have hdetails : (liftM (outcomes.mapM fun outcome => outcome :
      Except Failure (List Simulation.Sighting)) : Action σ _).run s'
      = (outcomes.mapM fun outcome => outcome, s') := rfl
  rw [run_bind, hdetails]
  cases (outcomes.mapM fun outcome => outcome : Except Failure (List Simulation.Sighting)) <;> rfl

/-- Writers that nobody interrupts first read and then update, one after the other. -/
theorem play_reaches (race : Simulation.Race) (n : Nat) (w : World) :
    Progress.Reaches rules (.gather race (Simulation.writers n), w)
      (.ended ((((Simulation.play ⟨rules, World.surroundings⟩ race n w).1.mapM
          fun outcome => outcome).map (Simulation.Report.of race.id)).map .report),
        (Simulation.play ⟨rules, World.surroundings⟩ race n w).2) := by
  have hreading : ∀ v ∈ Simulation.writers n, isReading v = true := by
    intro v hv
    obtain ⟨number, -, rfl⟩ := List.mem_map.1 hv
    rfl
  obtain ⟨hready, hread⟩ := @stepAll_reaches rules race (Simulation.writers n) [] hreading w
  obtain ⟨ended, houtcomes, hfinish⟩ := @finishAll_reaches rules race _ []
    (fun _ hv => (List.not_mem_nil hv).elim) hready (stepAll rules race (Simulation.writers n) w).2
  have hplay : Simulation.play ⟨rules, World.surroundings⟩ race n w
      = finishAll rules race (stepAll rules race (Simulation.writers n) w).1
        (stepAll rules race (Simulation.writers n) w).2 := rfl
  have hgather := hread.trans hfinish
  rw [List.nil_append, List.nil_append, ← hplay, Progress.gather.eq_def race ended, houtcomes,
    ← hplay] at hgather
  refine hgather.trans ?_
  dsimp only
  cases ((Simulation.play ⟨rules, World.surroundings⟩ race n w).1.mapM
    fun outcome => outcome : Except Failure (List Simulation.Sighting)) <;> exact .refl

/-- Writers that nobody interrupts come to what the simulation comes to. -/
theorem simulate_reaches (id : RecordId) (n : Nat) (w : World) :
    Progress.Reaches rules (.looking id n, w)
      (.ended (((Simulation.run ⟨rules, World.surroundings⟩ id n).run w).1.map .report),
        ((Simulation.run ⟨rules, World.surroundings⟩ id n).run w).2) := by
  have hlook : Progress.Step rules (.looking id n, w)
      (Progress.looked id n (.ok (w.store.get? id)), w) := ⟨0, rfl⟩
  have hget : (get ⟨rules, World.surroundings⟩ id).run w = (.ok (w.store.get? id), w) := rfl
  refine .head hlook ?_
  rw [Simulation.run, run_bind, Simulation.race, run_bind, hget]
  cases w.store.get? id with
  | none => exact .refl
  | some base =>
    rw [Progress.looked]
    cases hproduct : Product.ofRecord base with
    | error reason =>
      simp only [hproduct]
      exact .refl
    | ok product =>
      have hreport := report_run ⟨rules, World.surroundings⟩ ⟨id, product.price⟩ n w
      have hplay := @play_reaches rules ⟨id, product.price⟩ n w
      obtain ⟨hdetails, hworld⟩ := Prod.ext_iff.1 hreport
      dsimp only at hdetails hworld
      rw [← hdetails, ← hworld] at hplay
      simp only [hproduct]
      exact hplay

/-- An order that nobody interrupts comes to what the operation of the database comes to. -/
theorem Order.reaches_run (rules : Rules) (order : Order) (w : World) :
    Progress.Reaches rules (order.begin rules.constraints, w)
      (.ended ((order.run ⟨rules, World.surroundings⟩).run w).1,
        ((order.run ⟨rules, World.surroundings⟩).run w).2) := by
  cases order with
  | create fields =>
    rw [Order.run, run_map, create_run, Order.begin, Progress.accept]
    cases rules.constraints.validate fields with
    | error reason => exact .refl
    | ok _ =>
      refine (creation_reaches (fun c pick => rfl :
        ∀ c pick, (Progress.creating c).next rules pick = _) fields w).trans ?_
      cases (World.records.create fields w).1 <;> exact .refl
  | get id =>
    rw [Order.run, run_map]
    exact .single ⟨0, rfl⟩
  | list =>
    rw [Order.run, run_map]
    exact .single ⟨0, rfl⟩
  | execute request =>
    rw [Order.run, run_map]
    have hexecute : (Database.execute ⟨rules, World.surroundings⟩ request).run w
        = ((request.run rules World.surroundings w).1.mapError Failure.ofUpdateError,
          (request.run rules World.surroundings w).2) := rfl
    refine (executing_reaches request .entering w rfl).trans ?_
    rw [hexecute, Request.run]
    cases (request.runFrom rules World.surroundings .entering w).1 <;> exact .refl
  | delete id expected =>
    rw [Order.run, run_map]
    have hdelete : (Database.delete ⟨rules, World.surroundings⟩ id expected).run w
        = ((remove World.surroundings id expected w).1.mapError Failure.ofUpdateError,
          (remove World.surroundings id expected w).2) := rfl
    rw [hdelete]
    refine .head ⟨0, rfl⟩ ?_
    change Progress.Reaches rules (.resulted .record (remove World.surroundings id expected w).1,
      (remove World.surroundings id expected w).2) _
    cases (remove World.surroundings id expected w).1 <;> exact .refl
  | seedCatalog =>
    rw [Order.run, run_map]
    exact seed_reaches Catalog.samples [] w
  | simulate id n =>
    rw [Order.run, run_map]
    exact simulate_reaches id n w

end Alone

-- ============================================================================
-- Operations among the runs
-- ============================================================================

namespace Usage

variable {rules : Rules} {u : Usage} {k : Nat} {p p' : Progress} {w w' : World}

/-- Steps of an order with nothing in between are events of a run. -/
theorem exists_picks (h : Progress.Reaches rules (p, w) (p', w')) (hk : u.orders k = some p)
    (hw : u.world = w) :
    ∃ picks : List Nat, (picks.map (Event.work k)).foldl (step rules) u
      = ⟨w', Function.update u.orders k (some p')⟩ := by
  generalize hs : (p, w) = s at h
  induction h using Relation.ReflTransGen.head_induction_on generalizing u p w with
  | refl =>
    obtain ⟨rfl, rfl⟩ := Prod.mk.inj hs
    refine ⟨[], ?_⟩
    rw [← hk, Function.update_eq_self, ← hw]
    rfl
  | head hstep _ ih =>
    obtain rfl := hs
    obtain ⟨pick, hnext⟩ := hstep
    have hstepped : u.step rules (.work k pick)
        = ⟨(p.next rules pick w).2, Function.update u.orders k (some (p.next rules pick w).1)⟩ := by
      rw [step_work_of_some hk, hw]
    obtain ⟨picks, hpicks⟩ := @ih (u.step rules (.work k pick)) (p.next rules pick w).1
      (p.next rules pick w).2 (by rw [hstepped]; exact Function.update_self ..)
      (by rw [hstepped]) hnext
    refine ⟨pick :: picks, ?_⟩
    rw [List.map_cons, List.foldl_cons, hpicks, hstepped, Function.update_idem]

/-- An operation of the database is the run of its order in which nobody else acts. -/
theorem exists_operation (hk : u.orders k = none) (rules : Rules) (order : Order) :
    ∃ picks : List Nat,
      (Event.order k order :: picks.map (.work k)).foldl (step rules) u
        = ⟨((order.run ⟨rules, World.surroundings⟩).run u.world).2,
          Function.update u.orders k
            (some (.ended ((order.run ⟨rules, World.surroundings⟩).run u.world).1))⟩ := by
  have hbegun : (u.step rules (.order k order)).orders k
      = some (order.begin rules.constraints) := by
    rw [step_order_of_none hk]
    exact Function.update_self ..
  obtain ⟨picks, hpicks⟩ := exists_picks (order.reaches_run rules u.world) hbegun (by
    rw [step_order_of_none hk])
  refine ⟨picks, ?_⟩
  rw [List.foldl_cons, hpicks, step_order_of_none hk, Function.update_idem]

end Usage

end VersionedStore.Database
