/-
  VersionedStore.Update.Phase

  The run of one update request, observation by observation.

      entering --poll--> reading --read--> ready --poll--> writing --write--> ...

  A `Phase` says what the request knows and what it will look at next; `next`
  makes that one observation of the surroundings and moves on.  Between two
  observations anything may happen to the surroundings, so this is the grain at
  which requests of several clients interleave.

  A request whose write was refused goes on from the record that the refusal
  carried, if its change is relative and attempts are left: at once, or after a
  wait.  A wait that was cut short is followed by one more poll; a wait whose end
  the clock cannot show stops the request.

  `run` makes observations until the request has ended.  It ends under any
  surroundings, because `rank` goes down with each of them (`rank_next_lt`).
-/
import VersionedStore.Update.Request

namespace VersionedStore.Update

/-- A write that a request is about to issue. -/
structure Attempt where
  /-- The record that the write is worked out from. -/
  base : Record
  /-- The version that it presents. -/
  expected : Version
  /-- The fields that it would write. -/
  candidate : Fields
  /-- Writes issued before this one. -/
  made : Nat
  /-- Writes that may follow this one. -/
  left : Nat
deriving DecidableEq

/-- Where a request stands between two observations. -/
inductive Phase where
  /-- About to poll before anything else. -/
  | entering
  /-- About to read the record. -/
  | reading
  /-- About to poll before a write. -/
  | ready (attempt : Attempt)
  /-- About to write. -/
  | writing (attempt : Attempt)
  /-- About to wait before the next attempt. -/
  | waiting (current : Record) (made left : Nat)
  /-- About to poll because the wait was cut short. -/
  | rechecking (current : Record) (made left : Nat)
  | finished (result : Result)

/-- What a request acts on: a store, and the signals and the clock. -/
structure Surroundings (σ : Type) where
  store : RecordStore σ
  watch : Watch σ

namespace Request

variable (req : Request) (rules : Rules)

/-- The end of a request that gives up after a number of writes. -/
def giveUp (made : Nat) (reason : CancelReason) : Phase :=
  .finished (.error (.cancelled req.id made reason))

/-- The phase that a base leads to: a write, unless the base is stale or the candidate bad. -/
def prepare (base : Record) (made left : Nat) : Phase :=
  match req.stale? base with
  | some report => .finished (.error (.versionConflict report))
  | none =>
    match req.candidate rules base with
    | .error reason => .finished (.error (.validationFailed req.id reason))
    | .ok candidate => .ready ⟨base, req.presented base, candidate, made, left⟩

/-- The phase after the poll before the read. -/
def afterEntry : Option CancelReason → Phase
  | some reason => req.giveUp 0 reason
  | none => .reading

/-- The phase after the read. -/
def afterRead : Except StoreError (Option Record) → Phase
  | .error e => .finished (.error (.storage e))
  | .ok none => .finished (.error (.notFound req.id))
  | .ok (some base) => req.prepare rules base 0 (rules.policy.bound - 1)

/-- The phase after the poll before a write. -/
def afterReady (attempt : Attempt) : Option CancelReason → Phase
  | some reason => req.giveUp attempt.made reason
  | none => .writing attempt

/-- The phase after a write that was refused because the record had moved on. -/
def afterMismatch (attempt : Attempt) (current : Record) : Phase :=
  let made := attempt.made + 1
  let report : ConflictReport := ⟨req.id, attempt.expected, current, made⟩
  if !req.change.isRetryable then .finished (.error (.versionConflict report))
  else
    match attempt.left with
    | 0 => .finished (.error (.retryExhausted report))
    | left + 1 =>
      if rules.policy.backoff.isZero then req.prepare rules current made left
      else .waiting current made left

/-- The phase after a write. -/
def afterWrite (attempt : Attempt) : Except StoreError WriteOutcome → Phase
  | .error e => .finished (.error (.storage e))
  | .ok (.committed record) => .finished (.ok ⟨record, attempt.made + 1⟩)
  | .ok .notFound => .finished (.error (.notFound req.id))
  | .ok (.versionMismatch current) => req.afterMismatch rules attempt current

/-- The phase after a wait, which may have been cut short or have failed. -/
def afterWait (current : Record) (made left : Nat) :
    Except ClockError (Option CancelReason) → Phase
  | .error e => req.giveUp made (.clock e)
  | .ok (some _) => .rechecking current made left
  | .ok none => req.prepare rules current made left

/-- The phase after the poll that follows a wait cut short. -/
def afterRecheck (current : Record) (made left : Nat) : Option CancelReason → Phase
  | some reason => req.giveUp made reason
  | none => req.prepare rules current made left

/-- Make the observation that a phase is about to make, and move on. -/
def next {σ : Type} (around : Surroundings σ) : Phase → StateM σ Phase
  | .entering => req.afterEntry <$> around.watch.poll req.guard
  | .reading => req.afterRead rules <$> around.store.read req.id
  | .ready attempt => req.afterReady attempt <$> around.watch.poll req.guard
  | .writing attempt =>
    req.afterWrite rules attempt
      <$> around.store.write req.id attempt.expected attempt.candidate
  | .waiting current made left =>
    req.afterWait rules current made left
      <$> around.watch.wait req.guard rules.policy.backoff
  | .rechecking current made left =>
    req.afterRecheck rules current made left <$> around.watch.poll req.guard
  | .finished result => pure (.finished result)

end Request

-- ============================================================================
-- Every run ends
-- ============================================================================

namespace Phase

/-- The result of a request that has ended. -/
def result? : Phase → Option Result
  | finished result => some result
  | entering | reading | ready _ | writing _ | waiting .. | rechecking .. => none

/-- A bound on the observations that are still to come. -/
def rank (rules : Rules) : Phase → Nat
  | entering => 5 * (rules.policy.bound - 1) + 5
  | reading => 5 * (rules.policy.bound - 1) + 4
  | ready attempt => 5 * attempt.left + 3
  | writing attempt => 5 * attempt.left + 2
  | waiting _ _ left => 5 * left + 5
  | rechecking _ _ left => 5 * left + 4
  | finished _ => 0

end Phase

namespace Request

variable {req : Request} {rules : Rules}

theorem rank_prepare_le (base : Record) (made left : Nat) :
    (req.prepare rules base made left).rank rules ≤ 5 * left + 3 := by
  unfold prepare
  split
  · simp [Phase.rank]
  · split <;> simp [Phase.rank]

theorem rank_afterEntry_lt (verdict : Option CancelReason) :
    (req.afterEntry verdict).rank rules < Phase.entering.rank rules := by
  cases verdict <;> simp [afterEntry, giveUp, Phase.rank]

theorem rank_afterRead_lt (answer : Except StoreError (Option Record)) :
    (req.afterRead rules answer).rank rules < Phase.reading.rank rules := by
  match answer with
  | .error _ => simp [afterRead, Phase.rank]
  | .ok none => simp [afterRead, Phase.rank]
  | .ok (some base) => exact Nat.lt_succ_of_le (rank_prepare_le base 0 _)

theorem rank_afterReady_lt (attempt : Attempt) (verdict : Option CancelReason) :
    (req.afterReady attempt verdict).rank rules < (Phase.ready attempt).rank rules := by
  cases verdict <;> simp [afterReady, giveUp, Phase.rank]

theorem rank_afterMismatch_lt (attempt : Attempt) (current : Record) :
    (req.afterMismatch rules attempt current).rank rules
      < (Phase.writing attempt).rank rules := by
  unfold afterMismatch
  split
  · simp [Phase.rank]
  · split
    next => simp [Phase.rank]
    next left hleft =>
      have hwriting : (Phase.writing attempt).rank rules = 5 * left + 7 := by
        simp [Phase.rank, hleft]; omega
      have hprepare : (req.prepare rules current (attempt.made + 1) left).rank rules
          ≤ 5 * left + 3 := rank_prepare_le ..
      rw [hwriting]
      split
      · exact Nat.lt_of_le_of_lt hprepare (by omega)
      · simp [Phase.rank]

theorem rank_afterWrite_lt (attempt : Attempt) (answer : Except StoreError WriteOutcome) :
    (req.afterWrite rules attempt answer).rank rules < (Phase.writing attempt).rank rules := by
  match answer with
  | .error _ => simp [afterWrite, Phase.rank]
  | .ok (.committed _) => simp [afterWrite, Phase.rank]
  | .ok .notFound => simp [afterWrite, Phase.rank]
  | .ok (.versionMismatch current) => exact rank_afterMismatch_lt attempt current

theorem rank_afterWait_lt (current : Record) (made left : Nat)
    (outcome : Except ClockError (Option CancelReason)) :
    (req.afterWait rules current made left outcome).rank rules
      < (Phase.waiting current made left).rank rules := by
  match outcome with
  | .error _ => simp [afterWait, giveUp, Phase.rank]
  | .ok none =>
    exact Nat.lt_of_le_of_lt (rank_prepare_le current made left) (by simp [Phase.rank])
  | .ok (some _) => simp [afterWait, Phase.rank]

theorem rank_afterRecheck_lt (current : Record) (made left : Nat)
    (verdict : Option CancelReason) :
    (req.afterRecheck rules current made left verdict).rank rules
      < (Phase.rechecking current made left).rank rules := by
  cases verdict with
  | none => exact Nat.lt_of_le_of_lt (rank_prepare_le current made left) (by simp [Phase.rank])
  | some _ => simp [afterRecheck, giveUp, Phase.rank]

/-- Each observation brings a request closer to its end, whatever is observed. -/
theorem rank_next_lt {σ : Type} (around : Surroundings σ) (p : Phase) (s : σ)
    (h : p.result? = none) :
    (req.next rules around p s).1.rank rules < p.rank rules := by
  cases p with
  | entering => exact rank_afterEntry_lt _
  | reading => exact rank_afterRead_lt _
  | ready attempt => exact rank_afterReady_lt attempt _
  | writing attempt => exact rank_afterWrite_lt attempt _
  | waiting current made left => exact rank_afterWait_lt current made left _
  | rechecking current made left => exact rank_afterRecheck_lt current made left _
  | finished result => exact absurd h (by simp [Phase.result?])

end Request

/-- Run a request from a phase to its end. -/
def Request.runFrom {σ : Type} (req : Request) (rules : Rules) (around : Surroundings σ)
    (p : Phase) (s : σ) : Result × σ :=
  match _h : p.result? with
  | some result => (result, s)
  | none =>
    let r := req.next rules around p s
    req.runFrom rules around r.1 r.2
termination_by p.rank rules
decreasing_by exact Request.rank_next_lt around p s (by assumption)

/-- Run a request. -/
def Request.run {σ : Type} (req : Request) (rules : Rules) (around : Surroundings σ) :
    StateM σ Result :=
  req.runFrom rules around .entering

/-- Remove a record that is still at the expected version.  This is never tried again. -/
def remove {σ : Type} (around : Surroundings σ) (id : RecordId) (expected : Version) :
    StateM σ (Except UpdateError Record) := do
  match ← around.store.delete id expected with
  | .error e => return .error (.storage e)
  | .ok (.committed removed) => return .ok removed
  | .ok (.versionMismatch current) => return .error (.versionConflict ⟨id, expected, current, 1⟩)
  | .ok .notFound => return .error (.notFound id)

end VersionedStore.Update
