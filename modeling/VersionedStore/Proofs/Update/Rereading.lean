/-
  VersionedStore.Proofs.Update.Rereading

  A request that goes on from the record that a refused write carried does what a
  request would do that reads the record anew before every attempt.

  `Request.runAnew` is that other request, written as a plain loop.  The two agree
  on all surroundings that are `Candid`: what a refusal carries is what a read would
  show next, and neither looks at the clock and the signals nor further reads change
  that.  The invariant that carries the induction over the attempts is `Shows`.

  A store is candid if rivals get at it only right before the first read and right
  before writes, whatever they do to whichever record, and whatever the signals and
  the clock do at any time (`Contested`).
-/
import VersionedStore.Proofs.Update.Clients

namespace VersionedStore.Update

variable {σ ε : Type}

-- ============================================================================
-- The loop that reads the record anew
-- ============================================================================

namespace Request

/-- Wait after a lost race, and tell why if the request is to be given up. -/
def pause (req : Request) (rules : Rules) (around : Surroundings σ) :
    StateM σ (Option CancelReason) := do
  if rules.policy.backoff.isZero then return none
  match ← around.watch.wait req.guard rules.policy.backoff with
  | .error e => return some (.clock e)
  | .ok none => return none
  | .ok (some _) => around.watch.poll req.guard

/-- Write what the change makes of a record that was read, and go on as told after a lost race.
    `made` writes were issued before. -/
def submit (req : Request) (rules : Rules) (around : Surroundings σ) (base : Record) (made : Nat)
    (lost : Record → StateM σ Result) : StateM σ Result := do
  match req.candidate rules base with
  | .error reason => return .error (.validationFailed req.id reason)
  | .ok fields =>
    match ← around.watch.poll req.guard with
    | some reason => return .error (.cancelled req.id made reason)
    | none =>
      match ← around.store.write req.id base.version fields with
      | .error e => return .error (.storage e)
      | .ok (.committed record) => return .ok ⟨record, made + 1⟩
      | .ok .notFound => return .error (.notFound req.id)
      | .ok (.versionMismatch current) => lost current

/-- Read the record and try to write, and start again after a lost race.  `made` writes were issued
    before, and `left` may follow the next one. -/
def attemptAnew (req : Request) (rules : Rules) (around : Surroundings σ) (made left : Nat) :
    StateM σ Result := do
  match ← around.store.read req.id with
  | .error e => return .error (.storage e)
  | .ok none => return .error (.notFound req.id)
  | .ok (some base) =>
    req.submit rules around base made fun current =>
      match left with
      | 0 => return .error (.retryExhausted ⟨req.id, base.version, current, made + 1⟩)
      | left + 1 => do
        match ← req.pause rules around with
        | some reason => return .error (.cancelled req.id (made + 1) reason)
        | none => req.attemptAnew rules around (made + 1) left

/-- Run a request with a relative change, reading the record before every attempt. -/
def runAnew (req : Request) (rules : Rules) (around : Surroundings σ) : StateM σ Result := do
  match ← around.watch.poll req.guard with
  | some reason => return .error (.cancelled req.id 0 reason)
  | none => req.attemptAnew rules around 0 (rules.policy.bound - 1)

end Request

-- ============================================================================
-- Candid surroundings
-- ============================================================================

/-- A read shows this record, and changes nothing. -/
def Surroundings.Shows (around : Surroundings σ) (id : RecordId) (r : Record) (s : σ) : Prop :=
  around.store.read id s = (.ok (some r), s)

/-- What was read or was carried by a refusal is what a read shows until the next write. -/
structure Surroundings.Candid (around : Surroundings σ) (id : RecordId) : Prop where
  read : ∀ s r, (around.store.read id s).1 = .ok (some r) →
    around.Shows id r (around.store.read id s).2
  write : ∀ s expected fields current,
    (around.store.write id expected fields s).1 = .ok (.versionMismatch current) →
      around.Shows id current (around.store.write id expected fields s).2
  watch : ∀ r, around.watch.Keeps (around.Shows id r)

-- ============================================================================
-- The two requests agree
-- ============================================================================

namespace Request

variable {req : Request} {rules : Rules} {around : Surroundings σ}

/-- Run a request on from a phase. -/
def resume (req : Request) (rules : Rules) (around : Surroundings σ) (p : Phase) :
    StateM σ Result :=
  req.runFrom rules around p

theorem resume_finished (result : Result) :
    req.resume rules around (.finished result) = pure result :=
  funext (runFrom_finished around result)

/-- A run from a phase is one observation, and a run from where that leads. -/
theorem resume_eq_bind {p : Phase} (hp : p.result? = none) :
    req.resume rules around p = req.next rules around p >>= req.resume rules around :=
  funext (runFrom_next around hp)

theorem resume_prepare (hreq : req.change.isRetryable = true) (base : Record) (made left : Nat) :
    req.resume rules around (req.prepare rules base made left)
      = req.submit rules around base made fun current =>
        req.resume rules around
          (req.afterMismatch rules ⟨base, base.version, ∅, made, left⟩ current) := by
  have hsnapshot : req.snapshot? = none := if_pos hreq
  have hstale : req.stale? base = none := by rw [stale?, hsnapshot]
  rw [prepare, hstale, presented_of_stale?_eq_none hstale, submit]
  cases req.candidate rules base with
  | error reason => exact resume_finished _
  | ok fields =>
    show req.resume rules around (.ready ⟨base, base.version, fields, made, left⟩) = _
    rw [resume_eq_bind rfl, next, bind_map_left]
    refine bind_congr fun verdict => ?_
    cases verdict with
    | some reason => exact resume_finished _
    | none =>
      show req.resume rules around (.writing ⟨base, base.version, fields, made, left⟩) = _
      rw [resume_eq_bind rfl, next, bind_map_left]
      refine bind_congr fun answer => ?_
      -- after a lost race the candidate no longer matters
      rcases answer with e | record | current | _
      · exact resume_finished _
      · exact resume_finished _
      · rfl
      · exact resume_finished _

theorem resume_afterMismatch_zero (hreq : req.change.isRetryable = true) (base current : Record)
    (made : Nat) :
    req.resume rules around
        (req.afterMismatch rules ⟨base, base.version, ∅, made, 0⟩ current)
      = pure (.error (.retryExhausted ⟨req.id, base.version, current, made + 1⟩)) := by
  rw [afterMismatch, hreq]
  exact resume_finished _

theorem resume_afterMismatch_succ (hreq : req.change.isRetryable = true) (base current : Record)
    (made left : Nat) :
    req.resume rules around
        (req.afterMismatch rules ⟨base, base.version, ∅, made, left + 1⟩ current)
      = req.pause rules around >>= fun cut =>
        match cut with
        | some reason => pure (.error (.cancelled req.id (made + 1) reason))
        | none => req.resume rules around (req.prepare rules current (made + 1) left) := by
  rw [afterMismatch, hreq, pause]
  cases rules.policy.backoff.isZero with
  | true => rfl
  | false =>
    show req.resume rules around (.waiting current (made + 1) left) = _
    rw [resume_eq_bind rfl, next, bind_map_left]
    simp only [Bool.false_eq_true, if_false, bind_assoc]
    refine bind_congr fun outcome => ?_
    match outcome with
    | .error e => exact resume_finished _
    | .ok none => rfl
    | .ok (some _) =>
      show req.resume rules around (.rechecking current (made + 1) left) = _
      rw [resume_eq_bind rfl, next, bind_map_left]
      refine bind_congr fun verdict => ?_
      cases verdict with
      | none => rfl
      | some reason => exact resume_finished _

theorem bind_apply_congr {α β : Type} {act : StateM σ α} {f g : α → StateM σ β} {s : σ}
    (h : f (act s).1 (act s).2 = g (act s).1 (act s).2) : (act >>= f) s = (act >>= g) s := h

/-- After a lost race a read shows the record that the refusal carried. -/
theorem submit_congr (h : around.Candid req.id) (base : Record) (made : Nat)
    {lost lost' : Record → StateM σ Result}
    (hlost : ∀ current s, around.Shows req.id current s → lost current s = lost' current s)
    (s : σ) :
    req.submit rules around base made lost s = req.submit rules around base made lost' s := by
  rw [submit, submit]
  cases req.candidate rules base with
  | error reason => rfl
  | ok fields =>
    apply bind_apply_congr
    cases (around.watch.poll req.guard s).1 with
    | some reason => rfl
    | none =>
      generalize (around.watch.poll req.guard s).2 = s
      apply bind_apply_congr
      rcases hanswer : (around.store.write req.id base.version fields s).1
        with e | record | current | _
      · rfl
      · rfl
      · exact hlost current _ (h.write s _ _ current hanswer)
      · rfl

theorem pause_keeps (h : around.Candid req.id) (r : Record) :
    Keeps (around.Shows req.id r) (req.pause rules around) := by
  rw [pause]
  split
  · exact .pure none
  · refine ((h.watch r).wait _ _).bind fun outcome => ?_
    match outcome with
    | .error e => exact .pure _
    | .ok none => exact .pure none
    | .ok (some _) => exact (h.watch r).poll _

theorem attemptAnew_of_shows {base : Record} {s : σ} (hshows : around.Shows req.id base s)
    (made left : Nat) :
    req.attemptAnew rules around made left s
      = req.submit rules around base made (fun current =>
        match left with
        | 0 => pure (.error (.retryExhausted ⟨req.id, base.version, current, made + 1⟩))
        | left + 1 => req.pause rules around >>= fun cut =>
          match cut with
          | some reason => pure (.error (.cancelled req.id (made + 1) reason))
          | none => req.attemptAnew rules around (made + 1) left) s := by
  have hread : around.store.read req.id s = (.ok (some base), s) := hshows
  rw [attemptAnew.eq_def]
  show (match (around.store.read req.id s).1 with
    | .error e => pure (.error (.storage e))
    | .ok none => pure (.error (.notFound req.id))
    | .ok (some base) => req.submit rules around base made _ : StateM σ Result)
      (around.store.read req.id s).2 = _
  rw [hread]

theorem resume_prepare_eq (h : around.Candid req.id) (hreq : req.change.isRetryable = true)
    (base : Record) (made left : Nat) (s : σ) (hshows : around.Shows req.id base s) :
    req.resume rules around (req.prepare rules base made left) s
      = req.attemptAnew rules around made left s := by
  induction left generalizing base made s with
  | zero =>
    rw [resume_prepare hreq, attemptAnew_of_shows hshows]
    refine submit_congr h base made (fun current s _ => ?_) s
    rw [resume_afterMismatch_zero hreq]
  | succ left ih =>
    rw [resume_prepare hreq, attemptAnew_of_shows hshows]
    refine submit_congr h base made (fun current s hcurrent => ?_) s
    rw [resume_afterMismatch_succ hreq]
    apply bind_apply_congr
    -- what the refusal carried is still there to be read after the pause
    have hkept : around.Shows req.id current (req.pause rules around s).2 :=
      pause_keeps h current s hcurrent
    cases (req.pause rules around s).1 with
    | some reason => rfl
    | none => exact ih current (made + 1) _ hkept

/-- On candid surroundings, going on from the record that a refusal carried is as good as reading
    the record anew. -/
theorem run_eq_runAnew (h : around.Candid req.id) (hreq : req.change.isRetryable = true) :
    req.run rules around = req.runAnew rules around := by
  funext s
  show req.resume rules around .entering s = _
  rw [resume_eq_bind rfl, next, bind_map_left, runAnew]
  apply bind_apply_congr
  cases (around.watch.poll req.guard s).1 with
  | some reason => exact congrFun (resume_finished _) _
  | none =>
    generalize (around.watch.poll req.guard s).2 = s
    show req.resume rules around .reading s = req.attemptAnew rules around 0 _ s
    rw [resume_eq_bind rfl, next, bind_map_left, attemptAnew.eq_def]
    apply bind_apply_congr
    rcases hanswer : (around.store.read req.id s).1 with e | _ | base
    · exact congrFun (resume_finished _) _
    · exact congrFun (resume_finished _) _
    · have hshows := h.read s base hanswer
      exact (resume_prepare_eq h hreq base 0 _ _ hshows).trans (attemptAnew_of_shows hshows 0 _)

end Request

-- ============================================================================
-- A store that rivals get at
-- ============================================================================

/-- What rivals do right before a request's first read, and right before each of its writes, which
    are counted from zero.  They may create, write and remove any records, trigger signals, and
    take time. -/
structure Rivals (ε : Type) where
  beforeRead : Store × ε → Store × ε
  beforeWrite : Nat → Store × ε → Store × ε

/-- A store that rivals get at, and what a request has done with it so far. -/
structure Contested where
  store : Store
  /-- Whether the request has made a call. -/
  isBegun : Bool
  /-- How many writes it has issued. -/
  writes : Nat

namespace Contested

/-- Act on the store at a moment when no rival gets at it. -/
def onStore {α : Type} (act : StateM Store α) : StateM (Contested × ε) α := fun s =>
  ((act s.1.store).1, ({ s.1 with store := (act s.1.store).2 }, s.2))

/-- Read a record, right after rivals got at the store if this is the first call. -/
def read (rivals : Rivals ε) (id : RecordId) :
    StateM (Contested × ε) (Except StoreError (Option Record)) := fun s =>
  let met := if s.1.isBegun then (s.1.store, s.2) else rivals.beforeRead (s.1.store, s.2)
  let r := Store.read id met.1
  (r.1, (⟨r.2, true, s.1.writes⟩, met.2))

/-- Write a record at the time of a clock, right after rivals got at the store. -/
def write (rivals : Rivals ε) (clock : StateM ε Instant) (id : RecordId) (expected : Version)
    (fields : Fields) : StateM (Contested × ε) (Except StoreError WriteOutcome) := fun s =>
  let met := rivals.beforeWrite s.1.writes (s.1.store, s.2)
  let now := clock met.2
  let r := Store.write now.1 id expected fields met.1
  (r.1, (⟨r.2, true, s.1.writes + 1⟩, now.2))

/-- The store as the request sees it. -/
def records (rivals : Rivals ε) (clock : StateM ε Instant) : RecordStore (Contested × ε) where
  read := read rivals
  create fields := onOutside clock >>= fun now => onStore (Store.create now fields)
  write := write rivals clock
  delete id expected := onStore (Store.delete id expected)
  list := onStore Store.list

/-- All that the request acts on.  Signals and clocks may do anything. -/
def surroundings (rivals : Rivals ε) (clock : StateM ε Instant) (watch : Watch ε) :
    Surroundings (Contested × ε) :=
  ⟨records rivals clock, watch.beside⟩

variable {rivals : Rivals ε} {clock : StateM ε Instant} {watch : Watch ε}

theorem shows_iff {id : RecordId} {r : Record} {s : Contested × ε} :
    (surroundings rivals clock watch).Shows id r s ↔
      s.1.isBegun = true ∧ s.1.store.get? id = some r := by
  obtain ⟨⟨store, isBegun, writes⟩, o⟩ := s
  constructor
  · intro h
    have hbegun : true = isBegun := congrArg (·.2.1.isBegun) h
    subst hbegun
    exact ⟨rfl, Except.ok.inj (congrArg (·.1) h)⟩
  · rintro ⟨rfl, hget⟩
    show (Except.ok (store.get? id), _) = (Except.ok (some r), _)
    rw [hget]
    rfl

theorem get?_of_mismatch {now : Instant} {id : RecordId} {expected : Version} {fields : Fields}
    {s : Store} {current : Record}
    (h : (Store.write now id expected fields s).1 = .ok (.versionMismatch current)) :
    (Store.write now id expected fields s).2.get? id = some current := by
  have houtcome : Mutation.Outcome ⟨id, expected, .write now fields⟩ s
      (Store.write now id expected fields s).1 (Store.write now id expected fields s).2 :=
    Mutation.perform_outcome ⟨id, expected, .write now fields⟩ s
  rw [h] at houtcome
  generalize (Store.write now id expected fields s).2 = s' at houtcome
  cases houtcome with
  | stale hget => exact hget

theorem candid (id : RecordId) : (surroundings rivals clock watch).Candid id where
  read _ _ hread := shows_iff.2 ⟨rfl, Except.ok.inj hread⟩
  write _ _ _ _ hwrite := shows_iff.2 ⟨rfl, get?_of_mismatch hwrite⟩
  watch r := by
    -- a look changes nothing but what lies outside
    have hkeep : ∀ s s' : Contested × ε, s'.1 = s.1 →
        (surroundings rivals clock watch).Shows id r s →
          (surroundings rivals clock watch).Shows id r s' := by
      intro s s' hs h
      rw [shows_iff, hs]
      exact shows_iff.1 h
    exact ⟨fun _ s => hkeep s _ rfl, fun s => hkeep s _ rfl, fun _ s => hkeep s _ rfl⟩

/-- A relative change that goes on from what a refused write carried does what it would do if it
    read the record anew before every attempt, whatever rivals do right before its first read and
    right before its writes: the result is the same, and the store is left the same. -/
theorem run_adjust (rivals : Rivals ε) (clock : StateM ε Instant) (watch : Watch ε)
    (rules : Rules) (id : RecordId) (expected : Option Version) (a : Adjustment) (g : Guard) :
    Request.run ⟨id, expected, .adjust a, g⟩ rules (surroundings rivals clock watch)
      = Request.runAnew ⟨id, expected, .adjust a, g⟩ rules (surroundings rivals clock watch) :=
  Request.run_eq_runAnew (candid id) rfl

end Contested

end VersionedStore.Update
