/-
  VersionedStore.Update.Guard

  Giving up early.  A request may be guarded by a signal that someone else
  triggers and by a deadline.  `poll` looks at both, the signal first.

  `wait` passes a span of time in short pauses and polls before each of them, so
  it ends soon after a signal and does not go past the deadline.  It looks at
  the surroundings three times a turn, and they may move in between: the signal,
  the time against the deadline, and the time against the end of the wait.

  A clock need not be able to show every time.  The end of a wait is worked out
  before anything else, and if it is later than the clock can show, there is no
  wait and no poll: the sum fails.
-/
import VersionedStore.Duration

namespace VersionedStore.Update

/-- A signal to give up, by its name. -/
structure Signal where
  name : String
deriving DecidableEq, Repr

/-- A point on the clock that waits are measured by, in nanoseconds. -/
abbrev Time := Nat

/-- What makes a request give up. -/
structure Guard where
  signal : Option Signal
  deadline : Option Time
deriving DecidableEq, Repr

namespace Guard

/-- The guard that never makes a request give up. -/
def never : Guard := ⟨none, none⟩

instance : Inhabited Guard := ⟨never⟩

end Guard

/-- A time was worked out that the clock cannot show. -/
inductive ClockError where
  | overflow
deriving DecidableEq, Repr

namespace ClockError

/-- The wording of a failed sum. -/
def message : ClockError → String
  | overflow => "overflow when adding duration to instant"

end ClockError

/-- Why a request was given up. -/
inductive CancelReason where
  | signal
  | deadline
  /-- The end of a wait could not be worked out.  This stops a request where it stands, without
      an answer; it is counted as a reason here, so that every run has a result. -/
  | clock (error : ClockError)
deriving DecidableEq, Repr

namespace CancelReason

/-- The wording of a reason. -/
def message : CancelReason → String
  | signal => "cancelled by caller"
  | deadline => "deadline exceeded"
  | clock error => error.message

/-- The name of a reason. -/
def name : CancelReason → String
  | signal => "signal"
  | deadline => "deadline"
  | clock _ => "clock"

end CancelReason

/-- Signals and the clock, as a client sees them; their state is part of a `σ`. -/
structure Watch (σ : Type) where
  /-- Whether a signal has been triggered. -/
  isTriggered : Signal → StateM σ Bool
  now : StateM σ Time
  /-- Let this many nanoseconds pass. -/
  sleep : Nat → StateM σ Unit
  /-- The latest time that the clock can show, if there is one. -/
  latest : Option Time := none

-- ============================================================================
-- One look
-- ============================================================================

/-- What a look at the guard's signal and deadline tells. -/
def Guard.verdict (g : Guard) (triggered : Bool) (now : Time) : Option CancelReason :=
  if triggered then some .signal
  else if g.deadline.any (· ≤ now) then some .deadline
  else none

/-- Look at the guard's signal, then at its deadline. -/
def Watch.poll {σ : Type} (w : Watch σ) (g : Guard) : StateM σ (Option CancelReason) := do
  let triggered ←
    match g.signal with
    | some s => w.isTriggered s
    | none => pure false
  let now ← w.now
  return g.verdict triggered now

-- ============================================================================
-- Waiting
-- ============================================================================

/-- The longest single pause: two milliseconds. -/
def longestPause : Nat := 2 * nanosPerMilli

/-- The length of the pause that starts at `now` in a wait that ends at `finish`: never
    past the end of the wait, nor past the deadline. -/
def Guard.pause (g : Guard) (finish now : Time) : Nat :=
  let step := min (finish - now) longestPause
  match g.deadline with
  | some d => min step (d - now)
  | none => step

/-- What one turn of a wait leads to. -/
inductive Turn where
  /-- The wait is over, cut short for a reason or not. -/
  | over (reason : Option CancelReason)
  | pause (length : Nat)
deriving DecidableEq, Repr

/-- One turn of a wait: the signal and the time as the poll sees them, and the time after it. -/
def Guard.turn (g : Guard) (finish : Time) (triggered : Bool) (polled now : Time) : Turn :=
  match g.verdict triggered polled with
  | some reason => .over (some reason)
  | none => if finish ≤ now then .over none else .pause (g.pause finish now)

/-- Turns that are enough for a wait if the clock advances by each pause at least. -/
def turnsFor (wait : Nat) : Nat :=
  wait / longestPause + 3

/-- Take up to `turns` turns of a wait that ends at `finish`. -/
def Watch.waitUntil {σ : Type} (w : Watch σ) (g : Guard) (finish : Time) :
    Nat → StateM σ (Option CancelReason)
  | 0 => return none
  | turns + 1 => do
    let triggered ←
      match g.signal with
      | some s => w.isTriggered s
      | none => pure false
    let polled ← w.now
    let now ← w.now
    match g.turn finish triggered polled now with
    | .over reason => return reason
    | .pause length => do
      w.sleep length
      w.waitUntil g finish turns

/-- Whether the clock can show a time. -/
def Watch.shows {σ : Type} (w : Watch σ) (t : Time) : Bool :=
  w.latest.all (t ≤ ·)

/-- Wait, and tell why if the wait was cut short.  The clock must be able to show its end. -/
def Watch.wait {σ : Type} (w : Watch σ) (g : Guard) (d : Duration) :
    StateM σ (Except ClockError (Option CancelReason)) := do
  let start ← w.now
  let finish := start + d.nanoseconds
  if w.shows finish then .ok <$> w.waitUntil g finish (turnsFor d.nanoseconds)
  else return .error .overflow

-- ============================================================================
-- Laws
-- ============================================================================

theorem Guard.verdict_triggered (g : Guard) (now : Time) : g.verdict true now = some .signal :=
  rfl

theorem Guard.verdict_eq_none_iff {g : Guard} {triggered : Bool} {now : Time} :
    g.verdict triggered now = none ↔ triggered = false ∧ ∀ d ∈ g.deadline, now < d := by
  unfold Guard.verdict
  cases triggered <;> cases h : g.deadline <;> simp

theorem Watch.shows_eq_true_iff {σ : Type} {w : Watch σ} {t : Time} :
    w.shows t = true ↔ ∀ latest ∈ w.latest, t ≤ latest := by
  unfold Watch.shows
  cases w.latest <;> simp

theorem Watch.shows_eq_false_iff {σ : Type} {w : Watch σ} {t : Time} :
    w.shows t = false ↔ ∃ latest ∈ w.latest, latest < t := by
  unfold Watch.shows
  cases w.latest <;> simp

/-- A wait whose end the clock can show is its turns. -/
theorem Watch.wait_of_shows {σ : Type} {w : Watch σ} {g : Guard} {d : Duration} {s : σ}
    (h : w.shows ((w.now s).1 + d.nanoseconds) = true) :
    let turns := w.waitUntil g ((w.now s).1 + d.nanoseconds) (turnsFor d.nanoseconds) (w.now s).2
    w.wait g d s = (.ok turns.1, turns.2) := by
  show (ite (w.shows ((w.now s).1 + d.nanoseconds) = true) _ _ : StateM σ _) (w.now s).2 = _
  rw [if_pos h]
  rfl

/-- Any other wait fails after one look at the clock. -/
theorem Watch.wait_of_not_shows {σ : Type} {w : Watch σ} {g : Guard} {d : Duration} {s : σ}
    (h : w.shows ((w.now s).1 + d.nanoseconds) = false) :
    w.wait g d s = (.error .overflow, (w.now s).2) := by
  show (ite (w.shows ((w.now s).1 + d.nanoseconds) = true) _ _ : StateM σ _) (w.now s).2 = _
  rw [if_neg (Bool.eq_false_iff.1 h)]
  rfl

/-- A pause ends by the end of the wait, by the deadline, and within two milliseconds. -/
theorem Guard.pause_le (g : Guard) (finish now : Time) :
    g.pause finish now ≤ finish - now ∧ g.pause finish now ≤ longestPause ∧
      ∀ d ∈ g.deadline, g.pause finish now ≤ d - now := by
  unfold Guard.pause
  cases h : g.deadline with
  | none => simp only [Option.mem_def, reduceCtorEq, false_implies, implies_true, and_true]; omega
  | some d => simp only [Option.mem_def, Option.some.injEq, forall_eq']; omega

end VersionedStore.Update
