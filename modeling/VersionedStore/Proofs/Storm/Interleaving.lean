/-
  VersionedStore.Proofs.Storm.Interleaving

  Storms whose workers take their steps in any order.

  A `Desk` is a worker with notes: what its update under way has seen, and, of
  each update that is over, the result and all that it saw.  Every update is run
  on surroundings that write down what it alone says and sees, which changes
  nothing (`Desk.step_worker`).

  A `Scene` is the state of the surroundings and the desks.  A move is one step
  of one worker, or something that happens outside, such as the passing of time.
  Any list of moves is an order in which the workers may run; the one in which
  each works to its end is among them (`exists_runStormBy`).

  `Desk.Takes` says once what a step of a desk can be.  From it comes what every
  desk keeps: its tally counts the results in its notes, none of its rounds is
  lost, and each update keeps the protocol of requests (`Desk.Sound`).
-/
import Mathlib.Algebra.Order.BigOperators.Group.List
import Mathlib.Algebra.Order.Ring.Nat
import VersionedStore.Proofs.Database.Operations
import VersionedStore.Proofs.Update.Conformance
import VersionedStore.Scenario

namespace VersionedStore

open Update

namespace Storm

variable {σ : Type}

-- ============================================================================
-- Desks and scenes
-- ============================================================================

/-- What is noted of an update that is over. -/
structure Note where
  result : Result
  seen : List Sight

/-- A worker, with notes on its updates. -/
structure Desk where
  worker : Worker
  /-- What the update under way has seen. -/
  seen : List Sight
  /-- The updates that are over, the oldest first. -/
  notes : List Note

namespace Desk

/-- The desk of a worker that has a number of updates to make. -/
def start (rounds : Nat) : Desk :=
  ⟨.start rounds, [], []⟩

/-- One step of the worker, with what it sees and what becomes of it written down. -/
def step (db : Database σ) (task : Task) (d : Desk) : StateM σ Desk := fun s =>
  match d.worker.current with
  | none =>
    let r := d.worker.step db task s
    (⟨r.1, [], d.notes⟩, r.2)
  | some phase =>
    let r := task.request.next db.rules db.around.transcribed phase ⟨s, d.seen⟩
    match r.1.result? with
    | some result => (⟨d.worker.proceed r.1, [], d.notes ++ [⟨result, r.2.seen⟩]⟩, r.2.inner)
    | none => (⟨d.worker.proceed r.1, r.2.seen, d.notes⟩, r.2.inner)

end Desk

/-- The surroundings, and the desks of the workers. -/
structure Scene (σ : Type) where
  state : σ
  desks : List Desk

/-- Something that happens in the course of a storm. -/
inductive Move (σ : Type) where
  /-- A worker takes its next step. -/
  | work (worker : Nat)
  /-- Something happens outside, such as the passing of time. -/
  | drift (change : σ → σ)

namespace Scene

/-- Workers with a number of updates each, before their first step. -/
def start (workers rounds : Nat) (s : σ) : Scene σ :=
  ⟨s, List.replicate workers (.start rounds)⟩

/-- Let something happen. -/
def step (db : Database σ) (task : Task) (y : Scene σ) : Move σ → Scene σ
  | .work k =>
    match y.desks[k]? with
    | none => y
    | some d =>
      let r := d.step db task y.state
      ⟨r.2, y.desks.set k r.1⟩
  | .drift change => { y with state := change y.state }

/-- Let things happen, one after the other. -/
def run (db : Database σ) (task : Task) (y : Scene σ) (moves : List (Move σ)) : Scene σ :=
  moves.foldl (step db task) y

/-- Whether all workers are done. -/
def isDone (y : Scene σ) : Bool :=
  y.desks.all (·.worker.isDone)

/-- What became of all updates that are over. -/
def total (y : Scene σ) : Tally :=
  (y.desks.map (·.worker.tally)).foldl Tally.add .empty

theorem run_append (db : Database σ) (task : Task) (y : Scene σ) (moves more : List (Move σ)) :
    y.run db task (moves ++ more) = (y.run db task moves).run db task more :=
  List.foldl_append

/-- What every move keeps, a run keeps. -/
theorem run_invariant {db : Database σ} {task : Task} {P : Scene σ → Prop} {y : Scene σ}
    {moves : List (Move σ)} (hstep : ∀ y, ∀ m ∈ moves, P y → P (y.step db task m)) (h : P y) :
    P (y.run db task moves) := by
  induction moves generalizing y with
  | nil => exact h
  | cons m moves ih =>
    have hrest : ∀ y, ∀ n ∈ moves, P y → P (y.step db task n) :=
      fun y n hn => hstep y n (List.mem_cons_of_mem m hn)
    exact ih hrest (hstep y m List.mem_cons_self h)

end Scene

-- ============================================================================
-- What a step of a desk can be
-- ============================================================================

/-- What a step of a desk can be: the desk after it, and the surroundings after it. -/
inductive Desk.Takes (db : Database σ) (task : Task) (d : Desk) (s : σ) : Desk → σ → Prop where
  /-- The worker is done. -/
  | rests (hcurrent : d.worker.current = none) (hleft : d.worker.left = 0) :
      Takes db task d s ⟨d.worker, [], d.notes⟩ s
  /-- The worker takes up its next update. -/
  | starts {left : Nat} (hcurrent : d.worker.current = none) (hleft : d.worker.left = left + 1) :
      Takes db task d s ⟨⟨d.worker.tally, left, some .entering⟩, [], d.notes⟩ s
  /-- The update under way makes an observation, and goes on. -/
  | goesOn {p p' : Phase} {t : Transcribed σ} (hcurrent : d.worker.current = some p)
      (hnext : task.request.next db.rules db.around.transcribed p ⟨s, d.seen⟩ = (p', t))
      (hresult : p'.result? = none) :
      Takes db task d s ⟨⟨d.worker.tally, d.worker.left, some p'⟩, t.seen, d.notes⟩ t.inner
  /-- The update under way makes its last observation, and is counted. -/
  | ends {p : Phase} {result : Result} {t : Transcribed σ} (hcurrent : d.worker.current = some p)
      (hnext : task.request.next db.rules db.around.transcribed p ⟨s, d.seen⟩
        = (.finished result, t)) :
      Takes db task d s
        ⟨⟨d.worker.tally.count result, d.worker.left, none⟩, [], d.notes ++ [⟨result, t.seen⟩]⟩
        t.inner

theorem eq_finished {p : Phase} {result : Result} (h : p.result? = some result) :
    p = .finished result := by
  cases p with
  | finished other =>
    obtain rfl := Option.some.inj h
    rfl
  | entering | reading | ready | writing | waiting | rechecking => contradiction

theorem Desk.step_takes (db : Database σ) (task : Task) (d : Desk) (s : σ) :
    d.Takes db task s (d.step db task s).1 (d.step db task s).2 := by
  obtain ⟨⟨tally, left, current⟩, seen, notes⟩ := d
  cases current with
  | none =>
    cases left with
    | zero => exact .rests rfl rfl
    | succ left => exact .starts rfl rfl
  | some p =>
    rcases hnext : task.request.next db.rules db.around.transcribed p ⟨s, seen⟩ with ⟨p', t⟩
    cases hresult : p'.result? with
    | none =>
      have hproceed : Worker.proceed ⟨tally, left, some p⟩ p' = ⟨tally, left, some p'⟩ := by
        rw [Worker.proceed, hresult]
      simp only [step, hnext, hresult, hproceed]
      exact .goesOn rfl hnext hresult
    | some result =>
      obtain rfl := eq_finished hresult
      have hproceed : Worker.proceed ⟨tally, left, some p⟩ (.finished result)
          = ⟨tally.count result, left, none⟩ := rfl
      simp only [step, hnext, hresult, hproceed]
      exact .ends rfl hnext

/-- Writing things down changes nothing for the worker, nor for the surroundings. -/
theorem Desk.step_worker (db : Database σ) (task : Task) (d : Desk) (s : σ) :
    ((d.step db task s).1.worker, (d.step db task s).2) = d.worker.step db task s := by
  obtain ⟨⟨tally, left, current⟩, seen, notes⟩ := d
  cases current with
  | none => rfl
  | some p =>
    obtain ⟨hphase, hinner⟩ :=
      task.request.next_projects db.rules (projects_transcribed db.around) p ⟨s, seen⟩
    have hworker : Worker.step db task ⟨tally, left, some p⟩ s
        = (Worker.proceed ⟨tally, left, some p⟩ (task.request.next db.rules db.around p s).1,
          (task.request.next db.rules db.around p s).2) := rfl
    rw [hworker, ← hphase, ← hinner, step]
    dsimp only
    cases (task.request.next db.rules db.around.transcribed p ⟨s, seen⟩).1.result? <;> rfl

-- ============================================================================
-- What every desk keeps
-- ============================================================================

/-- The notes on a desk are complete, and its tally counts them. -/
structure Desk.Sound (db : Database σ) (task : Task) (rounds : Nat) (d : Desk) : Prop where
  tally_eq : d.worker.tally = (d.notes.map (·.result)).foldl Tally.count .empty
  /-- Every round is over, under way, or still to be started. -/
  rounds_eq : d.notes.length + d.worker.current.toList.length + d.worker.left = rounds
  unfinished : ∀ p, d.worker.current = some p → p.result? = none
  underway : ∀ p, d.worker.current = some p →
    task.request.Sofar db.rules db.around.watch.latest d.seen p
  conforms : ∀ n ∈ d.notes,
    task.request.Conforms db.rules db.around.watch.latest n.seen n.result

theorem Task.built (task : Task) : task.request.Built :=
  .adjust task.id Catalog.stockField task.delta .never

namespace Desk

variable {db : Database σ} {task : Task} {rounds : Nat}

theorem sound_start : (start rounds).Sound db task rounds where
  tally_eq := rfl
  rounds_eq := Nat.zero_add rounds
  unfinished _ h := by contradiction
  underway _ h := by contradiction
  conforms _ h := by contradiction

/-- What the update under way of a sound desk knows after one more observation. -/
theorem Sound.sofar {d : Desk} (h : d.Sound db task rounds) {p p' : Phase} {s : σ}
    {t : Transcribed σ} (hcurrent : d.worker.current = some p)
    (hnext : task.request.next db.rules db.around.transcribed p ⟨s, d.seen⟩ = (p', t)) :
    task.request.Sofar db.rules db.around.watch.latest t.seen p' := by
  obtain ⟨sights, hstep, hseen⟩ :=
    task.request.next_step db.rules db.around (h.unfinished p hcurrent) ⟨s, d.seen⟩
  rw [hnext] at hstep hseen
  have hsofar := (h.underway p hcurrent).step task.built hstep
  rw [← hseen] at hsofar
  exact hsofar

theorem Takes.sound {d d' : Desk} {s s' : σ} (htakes : d.Takes db task s d' s')
    (h : d.Sound db task rounds) : d'.Sound db task rounds := by
  cases htakes with
  | rests hcurrent =>
    refine ⟨h.tally_eq, h.rounds_eq, h.unfinished, fun p hp => ?_, h.conforms⟩
    rw [hcurrent] at hp
    contradiction
  | starts hcurrent hleft =>
    have hrounds := h.rounds_eq
    rw [hcurrent, hleft] at hrounds
    refine ⟨h.tally_eq, ?_, ?_, ?_, h.conforms⟩
    · rw [← hrounds]
      simp only [Option.toList_some, Option.toList_none, List.length_singleton, List.length_nil]
      omega
    · rintro p ⟨⟩
      rfl
    · rintro p ⟨⟩
      rfl
  | goesOn hcurrent hnext hresult =>
    have hrounds := h.rounds_eq
    have hsofar := h.sofar hcurrent hnext
    rw [hcurrent] at hrounds
    refine ⟨h.tally_eq, hrounds, ?_, ?_, h.conforms⟩
    · rintro p ⟨⟩
      exact hresult
    · rintro p ⟨⟩
      exact hsofar
  | @ends p result t hcurrent hnext =>
    have hrounds := h.rounds_eq
    have hsofar := h.sofar hcurrent hnext
    rw [hcurrent] at hrounds
    refine ⟨?_, ?_, fun _ hp => by contradiction, fun _ hp => by contradiction, ?_⟩
    · rw [List.map_append, List.foldl_append, ← h.tally_eq]
      rfl
    · rw [← hrounds, List.length_append]
      rfl
    · intro n hn
      rcases List.mem_append.1 hn with hold | hnew
      · exact h.conforms n hold
      · obtain rfl := List.mem_singleton.1 hnew
        exact hsofar

theorem Sound.step {d : Desk} (h : d.Sound db task rounds) (s : σ) :
    (d.step db task s).1.Sound db task rounds :=
  (d.step_takes db task s).sound h

end Desk

/-- There is a sound desk for each worker. -/
structure Scene.Sound (db : Database σ) (task : Task) (workers rounds : Nat) (y : Scene σ) :
    Prop where
  length_eq : y.desks.length = workers
  desks : ∀ d ∈ y.desks, d.Sound db task rounds

namespace Scene

variable {db : Database σ} {task : Task} {workers rounds : Nat}

theorem sound_start (s : σ) : (start workers rounds s).Sound db task workers rounds where
  length_eq := List.length_replicate
  desks d hd := by
    obtain rfl := List.eq_of_mem_replicate hd
    exact Desk.sound_start

theorem Sound.step {y : Scene σ} (h : y.Sound db task workers rounds) (m : Move σ) :
    (y.step db task m).Sound db task workers rounds := by
  cases m with
  | drift change => exact ⟨h.length_eq, h.desks⟩
  | work k =>
    cases hk : y.desks[k]? with
    | none =>
      simp only [Scene.step, hk]
      exact h
    | some d =>
      simp only [Scene.step, hk]
      refine ⟨List.length_set.trans h.length_eq, fun e he => ?_⟩
      rcases List.mem_or_eq_of_mem_set he with hold | rfl
      · exact h.desks e hold
      · exact (h.desks d (List.mem_of_getElem? hk)).step y.state

theorem sound_run (s : σ) (moves : List (Move σ)) :
    ((start workers rounds s).run db task moves).Sound db task workers rounds :=
  run_invariant (fun _ m _ h => h.step m) (sound_start s)

end Scene

-- ============================================================================
-- Tallies
-- ============================================================================

namespace Tally

/-- The number of updates that were counted. -/
def updates (t : Tally) : Nat :=
  t.committed + t.exhausted + t.rejected + t.failed

theorem updates_count (t : Tally) (result : Result) :
    (t.count result).updates = t.updates + 1 := by
  unfold count
  split
  · simp only [updates]
    omega
  · split <;> · simp only [updates]; omega

theorem updates_foldl_count (results : List Result) (t : Tally) :
    (results.foldl count t).updates = t.updates + results.length := by
  induction results generalizing t with
  | nil => rfl
  | cons result results ih =>
    rw [List.foldl_cons, ih, updates_count, List.length_cons]
    omega

/-- A number that adds up when tallies are added is, of a total, the sum of its parts. -/
theorem foldl_add_eq_sum {f : Tally → Nat} (hadd : ∀ s t, f (s.add t) = f s + f t)
    (tallies : List Tally) (t : Tally) :
    f (tallies.foldl add t) = f t + (tallies.map f).sum := by
  induction tallies generalizing t with
  | nil => rfl
  | cons s tallies ih =>
    rw [List.foldl_cons, ih, hadd, List.map_cons, List.sum_cons, Nat.add_assoc]

end Tally

theorem Scene.total_eq_sum {f : Tally → Nat} (hadd : ∀ s t, f (s.add t) = f s + f t)
    (hempty : f .empty = 0) (y : Scene σ) :
    f y.total = (y.desks.map fun d => f d.worker.tally).sum := by
  rw [total, Tally.foldl_add_eq_sum hadd, hempty, Nat.zero_add, List.map_map]
  rfl

theorem Scene.total_start {f : Tally → Nat} (hadd : ∀ s t, f (s.add t) = f s + f t)
    (hempty : f .empty = 0) (workers rounds : Nat) (s : σ) :
    f (start workers rounds s).total = 0 := by
  have hdesk : f (Desk.start rounds).worker.tally = 0 := hempty
  rw [total_eq_sum hadd hempty, start, List.map_replicate, List.sum_replicate_nat, hdesk,
    Nat.mul_zero]

/-- What a step of one worker does to the total. -/
theorem Scene.total_set {f : Tally → Nat} (hadd : ∀ s t, f (s.add t) = f s + f t)
    (hempty : f .empty = 0) (y : Scene σ) {k : Nat} {d : Desk} (hk : y.desks[k]? = some d)
    (d' : Desk) (s : σ) :
    f (total ⟨s, y.desks.set k d'⟩) + f d.worker.tally = f y.total + f d'.worker.tally := by
  rw [total_eq_sum hadd hempty, total_eq_sum hadd hempty]
  exact Database.sum_map_set (fun d => f d.worker.tally) hk d'

/-- When all workers are done, every round of each is noted. -/
theorem Scene.Sound.length_notes {db : Database σ} {task : Task} {workers rounds : Nat}
    {y : Scene σ} (h : y.Sound db task workers rounds) (hdone : y.isDone = true) :
    ∀ d ∈ y.desks, d.notes.length = rounds := by
  intro d hd
  have hworker := List.all_eq_true.1 hdone d hd
  rw [Worker.isDone, Bool.and_eq_true, beq_iff_eq, Option.isNone_iff_eq_none] at hworker
  obtain ⟨hleft, hcurrent⟩ := hworker
  have hrounds := (h.desks d hd).rounds_eq
  rw [hleft, hcurrent] at hrounds
  exact hrounds

/-- Numbers that are the same for every worker add up to a product. -/
theorem Scene.Sound.sum_eq_mul {db : Database σ} {task : Task} {workers rounds : Nat}
    {y : Scene σ} (h : y.Sound db task workers rounds) {f : Desk → Nat} {n : Nat}
    (hf : ∀ d ∈ y.desks, f d = n) : (y.desks.map f).sum = workers * n := by
  rw [List.map_congr_left hf, List.map_const', List.sum_replicate_nat, h.length_eq]

/-- When all workers are done, every round of each was counted. -/
theorem Scene.Sound.updates_total {db : Database σ} {task : Task} {workers rounds : Nat}
    {y : Scene σ} (h : y.Sound db task workers rounds) (hdone : y.isDone = true) :
    y.total.updates = workers * rounds := by
  have hadd : ∀ s t : Tally, (s.add t).updates = s.updates + t.updates := by
    intro s t
    simp only [Tally.updates, Tally.add]
    omega
  have hdesk : ∀ d ∈ y.desks, d.worker.tally.updates = rounds := by
    intro d hd
    have hnotes := h.length_notes hdone d hd
    rw [(h.desks d hd).tally_eq, Tally.updates_foldl_count, List.length_map, hnotes]
    exact Nat.zero_add rounds
  rw [total_eq_sum hadd rfl, h.sum_eq_mul hdesk]

-- ============================================================================
-- One worker after the other
-- ============================================================================

/-- A move that is the step of a worker. -/
def Move.IsWork : Move σ → Prop
  | .work _ => True
  | .drift _ => False

/-- Let workers take their steps to the end, one worker after the other. -/
def finishAll (db : Database σ) (task : Task) (workers : List Worker) : StateM σ (List Tally) :=
  workers.mapM (Worker.finish db task)

theorem finishAll_cons (db : Database σ) (task : Task) (w : Worker) (rest : List Worker) (s : σ) :
    finishAll db task (w :: rest) s
      = ((w.finish db task s).1 :: (finishAll db task rest (w.finish db task s).2).1,
        (finishAll db task rest (w.finish db task s).2).2) :=
  Database.mapM_cons_eq _ _ _ _

namespace Scene

variable (db : Database σ) (task : Task)

theorem step_work {y : Scene σ} {k : Nat} {d : Desk} (hk : y.desks[k]? = some d) :
    y.step db task (.work k)
      = ⟨(d.step db task y.state).2, y.desks.set k (d.step db task y.state).1⟩ := by
  simp only [step, hk]

/-- The steps of a worker to its end are moves. -/
theorem exists_finish {y : Scene σ} {k : Nat} {d : Desk} (hk : y.desks[k]? = some d) :
    ∃ n d', y.run db task (List.replicate n (.work k))
        = ⟨(d.worker.finish db task y.state).2, y.desks.set k d'⟩ ∧
      d'.worker.isDone = true ∧ d'.worker.tally = (d.worker.finish db task y.state).1 := by
  induction hrank : d.worker.rank db.rules using Nat.strongRecOn generalizing y d with
  | ind rank ih =>
    obtain ⟨hlt, hget⟩ := List.getElem?_eq_some_iff.1 hk
    rw [Worker.finish]
    split
    next hdone =>
      refine ⟨0, d, ?_, hdone, rfl⟩
      rw [← hget, List.set_getElem_self]
      rfl
    next hdone =>
      have hstep := d.step_worker db task y.state
      have hrank' := d.worker.rank_step_lt db task y.state (Bool.eq_false_iff.2 hdone)
      rw [← hstep, hrank] at hrank'
      have hk' : (y.step db task (.work k)).desks[k]? = some (d.step db task y.state).1 := by
        rw [step_work db task hk, List.getElem?_set_self hlt]
      obtain ⟨n, d', hrun, hdone', htally⟩ := ih _ hrank' hk' rfl
      rw [← hstep]
      refine ⟨n + 1, d', ?_, hdone', ?_⟩
      · have hmore : y.run db task (List.replicate (n + 1) (.work k))
            = (y.step db task (.work k)).run db task (List.replicate n (.work k)) := rfl
        rw [hmore, hrun, step_work db task hk, List.set_set]
      · rw [htally, step_work db task hk]

/-- The steps of the workers to their ends, one worker after the other, are moves. -/
theorem exists_finishAll (rest before : List Desk) (s : σ) :
    ∃ (moves : List (Move σ)) (rest' : List Desk), (∀ m ∈ moves, m.IsWork) ∧
      (⟨s, before ++ rest⟩ : Scene σ).run db task moves
        = ⟨(finishAll db task (rest.map (·.worker)) s).2, before ++ rest'⟩ ∧
      (∀ d ∈ rest', d.worker.isDone = true) ∧
      rest'.map (·.worker.tally) = (finishAll db task (rest.map (·.worker)) s).1 := by
  induction rest generalizing before s with
  | nil =>
    exact ⟨[], [], fun _ hm => (List.not_mem_nil hm).elim, rfl,
      fun _ hd => (List.not_mem_nil hd).elim, rfl⟩
  | cons d rest ih =>
    have hk : (⟨s, before ++ d :: rest⟩ : Scene σ).desks[before.length]? = some d := by
      simp
    obtain ⟨n, d', hrun, hdone, htally⟩ := exists_finish db task hk
    obtain ⟨moves, rest', hmoves, hrest, hdones, htallies⟩ :=
      ih (before ++ [d']) (d.worker.finish db task s).2
    have hset : (before ++ d :: rest).set before.length d' = (before ++ [d']) ++ rest := by
      simp
    refine ⟨List.replicate n (.work before.length) ++ moves, d' :: rest', ?_, ?_, ?_, ?_⟩
    · intro m hm
      rcases List.mem_append.1 hm with hwork | hm
      · obtain rfl := List.eq_of_mem_replicate hwork
        trivial
      · exact hmoves m hm
    · rw [run_append, hrun, hset, hrest, List.map_cons, finishAll_cons, List.append_assoc]
      rfl
    · intro e he
      rcases List.mem_cons.1 he with rfl | he
      · exact hdone
      · exact hdones e he
    · rw [List.map_cons, List.map_cons, finishAll_cons, htally, htallies]

/-- The order in which each worker works to its end before the next begins is an order of moves. -/
theorem exists_run (workers rounds : Nat) (s : σ) :
    ∃ moves, (∀ m ∈ moves, m.IsWork) ∧
      ((start workers rounds s).run db task moves).isDone = true ∧
      (((start workers rounds s).run db task moves).total,
        ((start workers rounds s).run db task moves).state)
      = Storm.run db task workers rounds s := by
  obtain ⟨moves, desks, hmoves, hrun, hdone, htallies⟩ :=
    exists_finishAll db task (List.replicate workers (.start rounds)) [] s
  have hstart : start workers rounds s
      = ⟨s, [] ++ List.replicate workers (.start rounds)⟩ := rfl
  have hworkers : (List.replicate workers (Desk.start rounds)).map (·.worker)
      = List.replicate workers (Worker.start rounds) := List.map_replicate
  rw [hworkers] at hrun htallies
  refine ⟨moves, hmoves, ?_, ?_⟩
  · rw [hstart, hrun]
    exact List.all_eq_true.2 hdone
  · rw [hstart, hrun, total, List.nil_append, htallies]
    rfl

end Scene

end Storm

-- ============================================================================
-- The scenario
-- ============================================================================

namespace Scenario

variable {σ α : Type} {db : Database σ} {place workers rounds : Nat} {delta : Int64}

/-- Seed, let someone work on the stock of a product, and report on it. -/
def stormWith (db : Database σ) (place : Nat) (delta : Int64) (work : Storm.Task → StateM σ α)
    (tally : α → Storm.Tally) : Play σ (Storm.Report × α) := do
  let records ← act db.seedCatalog
  let target ← pick records place
  let before ← product target
  let task : Storm.Task := ⟨target.id, delta⟩
  let done ← work task
  match ← act (db.get target.id) with
  | none => throw (.vanished target.id)
  | some r =>
    let after ← product r
    return (.of before after task (tally done), done)

/-- Have workers add to the stock of a product, in any order of their steps. -/
def runStormBy (db : Database σ) (place workers rounds : Nat) (delta : Int64)
    (moves : List (Storm.Move σ)) : Play σ (Storm.Report × Storm.Scene σ) :=
  stormWith db place delta (fun task s =>
    let y := (Storm.Scene.start workers rounds s).run db task moves
    (y, y.state)) Storm.Scene.total

theorem runStorm_eq_map : runStorm db place workers rounds delta
    = Prod.fst <$> stormWith db place delta (Storm.run db · workers rounds) id := by
  simp only [runStorm, stormWith, map_bind]
  refine bind_congr fun records => bind_congr fun target => bind_congr fun before =>
    bind_congr fun total => bind_congr fun found => ?_
  cases found with
  | none => rfl
  | some r => simp only [map_bind, map_pure, id]

/-- How a storm comes to its report. -/
inductive Stormed (db : Database σ) (place : Nat) (delta : Int64)
    (work : Storm.Task → StateM σ α) (tally : α → Storm.Tally) (s : σ) :
    Storm.Report → α → σ → Prop where
  | mk {records : List Record} {seeded worked s' : σ} {target last : Record}
      {before after : Product} {done : α}
      (hseed : db.seedCatalog.run s = (.ok records, seeded))
      (hpick : pick records place = .ok target) (hbefore : product target = .ok before)
      (hwork : work ⟨target.id, delta⟩ seeded = (done, worked))
      (hget : (db.get target.id).run worked = (.ok (some last), s'))
      (hafter : product last = .ok after) :
      Stormed db place delta work tally s
        (.of before after ⟨target.id, delta⟩ (tally done)) done s'

theorem run_act_eq_ok_iff {β : Type} {action : Action σ β} {s s' : σ} {b : β} :
    (act action).run s = (.ok b, s') ↔ action.run s = (.ok b, s') := by
  have hrun : (act action).run s
      = ((action.run s).1.mapError Error.failure, (action.run s).2) := rfl
  rw [hrun]
  rcases action.run s with ⟨e | a, t⟩
  · constructor <;> rintro ⟨⟩
  · constructor <;> rintro ⟨⟩ <;> rfl

theorem run_except_eq_ok_iff {β : Type} {x : Except Error β} {s s' : σ} {b : β} :
    (liftM x : Play σ β).run s = (.ok b, s') ↔ x = .ok b ∧ s = s' := by
  have hrun : (liftM x : Play σ β).run s = (x, s) := rfl
  rw [hrun, Prod.mk.injEq]

theorem run_state_eq_ok_iff {β : Type} {x : StateM σ β} {s s' : σ} {b : β} :
    (liftM x : Play σ β).run s = (.ok b, s') ↔ x s = (b, s') := by
  have hrun : (liftM x : Play σ β).run s = (.ok (x s).1, (x s).2) := rfl
  rw [hrun]
  constructor
  · rintro ⟨⟩
    rfl
  · intro h
    rw [h]

theorem stormWith_eq_ok_iff {work : Storm.Task → StateM σ α} {tally : α → Storm.Tally}
    {s s' : σ} {report : Storm.Report} {done : α} :
    (stormWith db place delta work tally).run s = (.ok (report, done), s') ↔
      Stormed db place delta work tally s report done s' := by
  simp only [stormWith, Database.run_bind_eq_ok_iff, run_act_eq_ok_iff, run_except_eq_ok_iff,
    run_state_eq_ok_iff]
  constructor
  · rintro ⟨records, seeded, hseed, target, _, ⟨hpick, rfl⟩, before, _, ⟨hbefore, rfl⟩, worked,
      _, hwork, r?, _, hget, hreport⟩
    cases r? with
    | none => cases hreport
    | some last =>
      simp only [Database.run_bind_eq_ok_iff, run_except_eq_ok_iff] at hreport
      obtain ⟨after, _, ⟨hafter, rfl⟩, hreport⟩ := hreport
      cases hreport
      exact .mk hseed hpick hbefore hwork hget hafter
  · rintro ⟨hseed, hpick, hbefore, hwork, hget, hafter⟩
    refine ⟨_, _, hseed, _, _, ⟨hpick, rfl⟩, _, _, ⟨hbefore, rfl⟩, _, _, hwork, _, _, hget, ?_⟩
    simp only [Database.run_bind_eq_ok_iff, run_except_eq_ok_iff]
    exact ⟨_, _, ⟨hafter, rfl⟩, rfl⟩

/-- How an interleaved storm comes to its report. -/
theorem stormed_of_runStormBy {moves : List (Storm.Move σ)} {s s' : σ} {report : Storm.Report}
    {y : Storm.Scene σ}
    (h : (runStormBy db place workers rounds delta moves).run s = (.ok (report, y), s')) :
    ∃ records seeded target before last after,
      db.seedCatalog.run s = (.ok records, seeded) ∧ pick records place = .ok target ∧
      product target = .ok before ∧
      y = (Storm.Scene.start workers rounds seeded).run db ⟨target.id, delta⟩ moves ∧
      (db.get target.id).run y.state = (.ok (some last), s') ∧ product last = .ok after ∧
      report = .of before after ⟨target.id, delta⟩ y.total := by
  obtain ⟨hseed, hpick, hbefore, hwork, hget, hafter⟩ := stormWith_eq_ok_iff.1 h
  obtain ⟨rfl, rfl⟩ := Prod.mk.inj hwork
  exact ⟨_, _, _, _, _, _, hseed, hpick, hbefore, rfl, hget, hafter, rfl⟩

/-- A report of a storm in which each worker works to its end before the next begins is the
    report for an order of moves. -/
theorem exists_runStormBy {s s' : σ} {report : Storm.Report}
    (h : (runStorm db place workers rounds delta).run s = (.ok report, s')) :
    ∃ moves y, (∀ m ∈ moves, m.IsWork) ∧ y.isDone = true ∧
      (runStormBy db place workers rounds delta moves).run s = (.ok (report, y), s') := by
  have hrun : ∃ total, (stormWith db place delta (Storm.run db · workers rounds) id).run s
      = (.ok (report, total), s') := by
    rw [runStorm_eq_map, ← bind_pure_comp, Database.run_bind_eq_ok_iff] at h
    obtain ⟨⟨report', total⟩, t, hrun, hreport⟩ := h
    cases hreport
    exact ⟨total, hrun⟩
  obtain ⟨total, hrun⟩ := hrun
  cases stormWith_eq_ok_iff.1 hrun with
  | @mk records seeded worked _ target last before after _ hseed hpick hbefore hwork hget hafter =>
    obtain ⟨moves, hmoves, hdone, horder⟩ :=
      Storm.Scene.exists_run db ⟨target.id, delta⟩ workers rounds seeded
    have hscene := Prod.mk.inj (horder.trans hwork)
    refine ⟨moves, _, hmoves, hdone, stormWith_eq_ok_iff.2 ?_⟩
    rw [← hscene.2] at hget
    rw [id, ← hscene.1]
    exact .mk hseed hpick hbefore rfl hget hafter

/-- Two workers that take their steps in turns, each with one update to make. -/
def abreast : List (Storm.Move World) :=
  (List.replicate 5 [.work 0, .work 1]).flatten

/-- The rules for products, with three attempts. -/
def productRules : Rules :=
  (Config.default.setAll [.catalog]).rules

theorem exists_eq_ok {ε α σ : Type} {x : Except ε α × σ} {p : α → Bool}
    (h : x.1.toOption.any p = true) : ∃ a s', x = (.ok a, s') ∧ p a = true := by
  obtain ⟨e | a, s'⟩ := x
  · contradiction
  · exact ⟨a, s', rfl, h⟩

end Scenario
end VersionedStore
