/-
  VersionedStore.Proofs.Update.Waiting

  A wait ends, and it does not run past the deadline.

  `Watch.Waits` is a wait without any bound on its turns: it relates a state to the
  laps that are taken from it and to how they end, and it does so only if they end.

  What carries the module is the clock, which a pause moves on by its length at
  least.  So a pause of full length uses up two milliseconds of the wait, and a
  shorter one reaches the end of the wait or the deadline, which leaves one more
  lap.  That covers a pause of no length at all, which comes about if the deadline
  passes between the poll and the look at the end of the wait (`exists_waits`).

  A clock need not be able to show the end of a wait, however.  Such a wait fails
  before its first poll, even if its guard is over by then (`wait_timely`).
-/
import VersionedStore.Proofs.Update.Cancellation

namespace VersionedStore.Update

variable {σ : Type}

-- ============================================================================
-- Laps
-- ============================================================================

/-- One turn of a wait up to its pause: what its looks saw. -/
structure Lap (σ : Type) where
  /-- The state in which the poll began. -/
  state : σ
  /-- Whether the poll saw that the signal was triggered. -/
  triggered : Bool
  /-- The time that the poll held against the deadline. -/
  polled : Time
  /-- The time that was held against the end of the wait, at which the pause starts. -/
  now : Time
  /-- The state after the looks. -/
  after : σ

namespace Lap

/-- The poll saw that the signal was triggered, or that the deadline had passed. -/
def Sees (lap : Lap σ) (g : Guard) : Prop :=
  lap.triggered = true ∨ ∃ d ∈ g.deadline, d ≤ lap.polled

/-- The reason for which such a poll ends the wait: the deadline only without the signal. -/
def reason (lap : Lap σ) : CancelReason :=
  if lap.triggered then .signal else .deadline

/-- What the lap leads to in a wait that ends at `finish`. -/
def turn (lap : Lap σ) (g : Guard) (finish : Time) : Turn :=
  g.turn finish lap.triggered lap.polled lap.now

variable {lap : Lap σ} {g : Guard} {finish : Time}

theorem reason_eq_signal_iff : lap.reason = .signal ↔ lap.triggered = true := by
  unfold reason
  cases lap.triggered <;> simp

theorem verdict_of_sees (h : lap.Sees g) :
    g.verdict lap.triggered lap.polled = some lap.reason := by
  unfold Guard.verdict reason
  cases htriggered : lap.triggered with
  | true => rfl
  | false =>
    obtain ⟨d, hd, hle⟩ := h.resolve_left (Bool.eq_false_iff.1 htriggered)
    have hlate : g.deadline.any (· ≤ lap.polled) = true := by
      rw [Option.mem_def.1 hd]
      exact decide_eq_true hle
    simp only [hlate, if_true, Bool.false_eq_true, if_false]

theorem verdict_of_not_sees (h : ¬lap.Sees g) : g.verdict lap.triggered lap.polled = none := by
  refine Guard.verdict_eq_none_iff.2 ⟨Bool.eq_false_iff.2 fun htriggered => ?_, fun d hd => ?_⟩
  · exact h (.inl htriggered)
  · exact Nat.lt_of_not_le fun hle => h (.inr ⟨d, hd, hle⟩)

theorem turn_of_sees (h : lap.Sees g) : lap.turn g finish = .over (some lap.reason) := by
  rw [turn, Guard.turn, verdict_of_sees h]

theorem turn_of_finish (h : ¬lap.Sees g) (hfinish : finish ≤ lap.now) :
    lap.turn g finish = .over none := by
  rw [turn, Guard.turn, verdict_of_not_sees h]
  exact if_pos hfinish

theorem turn_of_lt (h : ¬lap.Sees g) (hnow : lap.now < finish) :
    lap.turn g finish = .pause (g.pause finish lap.now) := by
  rw [turn, Guard.turn, verdict_of_not_sees h]
  exact if_neg (Nat.not_le.2 hnow)

/-- All that a lap can lead to. -/
theorem turn_cases (lap : Lap σ) (g : Guard) (finish : Time) :
    (lap.Sees g ∧ lap.turn g finish = .over (some lap.reason)) ∨
      (¬lap.Sees g ∧ finish ≤ lap.now ∧ lap.turn g finish = .over none) ∨
      (¬lap.Sees g ∧ lap.now < finish ∧
        lap.turn g finish = .pause (g.pause finish lap.now)) := by
  by_cases hsees : lap.Sees g
  · exact .inl ⟨hsees, turn_of_sees hsees⟩
  · rcases Nat.lt_or_ge lap.now finish with hnow | hfinish
    · exact .inr (.inr ⟨hsees, hnow, turn_of_lt hsees hnow⟩)
    · exact .inr (.inl ⟨hsees, hfinish, turn_of_finish hsees hfinish⟩)

theorem turn_eq_over_some_iff {reason : CancelReason} :
    lap.turn g finish = .over (some reason) ↔ lap.Sees g ∧ lap.reason = reason := by
  rcases lap.turn_cases g finish with ⟨hsees, hturn⟩ | ⟨hsees, -, hturn⟩ | ⟨hsees, -, hturn⟩
  · rw [hturn]
    simp [hsees]
  · rw [hturn]
    simp [hsees]
  · rw [hturn]
    simp [hsees]

theorem turn_eq_over_none_iff :
    lap.turn g finish = .over none ↔ ¬lap.Sees g ∧ finish ≤ lap.now := by
  rcases lap.turn_cases g finish with
    ⟨hsees, hturn⟩ | ⟨hsees, hfinish, hturn⟩ | ⟨hsees, hnow, hturn⟩
  · rw [hturn]
    simp [hsees]
  · rw [hturn]
    simp [hsees, hfinish]
  · rw [hturn]
    simp [hnow]

theorem turn_eq_pause_iff {length : Nat} :
    lap.turn g finish = .pause length ↔
      ¬lap.Sees g ∧ lap.now < finish ∧ g.pause finish lap.now = length := by
  rcases lap.turn_cases g finish with
    ⟨hsees, hturn⟩ | ⟨hsees, hfinish, hturn⟩ | ⟨hsees, hnow, hturn⟩
  · rw [hturn]
    simp [hsees]
  · rw [hturn]
    simp [Nat.not_lt.2 hfinish]
  · rw [hturn]
    simp [hsees, hnow]

end Lap

/-- The looks of the turn that begins in a state. -/
def Watch.lap (w : Watch σ) (g : Guard) (s : σ) : Lap σ :=
  let looked := w.look g.signal s
  let polled := w.now looked.2
  let now := w.now polled.2
  ⟨s, looked.1, polled.1, now.1, now.2⟩

/-- What the turns of a wait come to whose end the clock can show. -/
def Watch.turnsOf (w : Watch σ) (g : Guard) (d : Duration) (s : σ) : Option CancelReason × σ :=
  w.waitUntil g ((w.now s).1 + d.nanoseconds) (turnsFor d.nanoseconds) (w.now s).2

-- ============================================================================
-- Waits without a bound on their laps
-- ============================================================================

/-- From a state on, a wait until `finish` takes these laps, and then ends with this answer
    and in this state. -/
inductive Watch.Waits (w : Watch σ) (g : Guard) (finish : Time) :
    σ → List (Lap σ) → Option CancelReason × σ → Prop where
  | last {s : σ} {answer : Option CancelReason}
      (hturn : (w.lap g s).turn g finish = .over answer) :
      Waits w g finish s [w.lap g s] (answer, (w.lap g s).after)
  | pause {s : σ} {length : Nat} {laps : List (Lap σ)} {result : Option CancelReason × σ}
      (hturn : (w.lap g s).turn g finish = .pause length)
      (hrest : Waits w g finish (w.sleep length (w.lap g s).after).2 laps result) :
      Waits w g finish s (w.lap g s :: laps) result

namespace Watch

variable {w : Watch σ} {g : Guard} {finish : Time} {s : σ} {laps : List (Lap σ)}
  {result : Option CancelReason × σ}

theorem waitUntil_lap (turns : Nat) :
    w.waitUntil g finish (turns + 1) s
      = w.follow g finish turns ((w.lap g s).turn g finish) (w.lap g s).after := by
  rw [waitUntil_succ]
  rfl

/-- A wait that ends is not cut off by a bound that leaves it its laps. -/
theorem Waits.waitUntil_eq (h : w.Waits g finish s laps result) {turns : Nat}
    (hturns : laps.length ≤ turns) : w.waitUntil g finish turns s = result := by
  induction h generalizing turns with
  | last hturn =>
    obtain ⟨rest, rfl⟩ := Nat.exists_eq_add_of_le' hturns
    show w.waitUntil g finish (rest + 1) _ = _
    rw [waitUntil_lap, hturn]
    rfl
  | pause hturn _ ih =>
    rw [List.length_cons] at hturns
    obtain ⟨rest, rfl⟩ := Nat.exists_eq_add_of_le' (Nat.le_of_add_left_le hturns)
    rw [waitUntil_lap, hturn]
    exact ih (Nat.le_of_add_le_add_right hturns)

/-- A wait goes on for as long as its polls see nothing and its end is not reached. -/
theorem Waits.exists_last (h : w.Waits g finish s laps result) :
    ∃ earlier last, laps = earlier ++ [last] ∧
      (∀ lap ∈ earlier, ¬lap.Sees g ∧ lap.now < finish) ∧
      last = w.lap g last.state ∧ last.turn g finish = .over result.1 ∧
      result.2 = last.after := by
  induction h with
  | last hturn => exact ⟨[], _, rfl, by simp, rfl, hturn, rfl⟩
  | @pause s length laps result hturn _ ih =>
    obtain ⟨earlier, last, rfl, hearlier, hlast⟩ := ih
    obtain ⟨hsees, hnow, -⟩ := Lap.turn_eq_pause_iff.1 hturn
    refine ⟨w.lap g s :: earlier, last, rfl, ?_, hlast⟩
    exact List.forall_mem_cons.2 ⟨⟨hsees, hnow⟩, hearlier⟩

end Watch

-- ============================================================================
-- Clocks that pauses move on
-- ============================================================================

/-- A look tells what was so while it was taken, and nothing goes back meanwhile; a pause moves
    the clock on by its length at least. -/
structure Watch.Timely (w : Watch σ) (facts : Facts σ) : Prop where
  look_true : ∀ signal s, facts.triggered s signal = true → (w.isTriggered signal s).1 = true
  of_look_true : ∀ signal s, (w.isTriggered signal s).1 = true →
    facts.triggered (w.isTriggered signal s).2 signal = true
  le_now : ∀ s, facts.clock s ≤ (w.now s).1
  now_le : ∀ s, (w.now s).1 ≤ facts.clock (w.now s).2
  isTriggered : ∀ signal s, facts.Onward s (w.isTriggered signal s).2
  now : ∀ s, facts.Onward s (w.now s).2
  le_sleep : ∀ length s, facts.clock s + length ≤ facts.clock (w.sleep length s).2

/-- A clock that moves by the length of each pause, and by nothing else. -/
structure Watch.Exact (w : Watch σ) (facts : Facts σ) : Prop where
  now_eq : ∀ s, (w.now s).1 = facts.clock s
  now : ∀ s, facts.clock (w.now s).2 = facts.clock s
  isTriggered : ∀ signal s, facts.clock (w.isTriggered signal s).2 = facts.clock s
  sleep : ∀ length s, facts.clock (w.sleep length s).2 = facts.clock s + length

/-- A pause is of full length, or it reaches the end of the wait or the deadline. -/
theorem Guard.pause_reaches (g : Guard) (finish now : Time) :
    g.pause finish now = longestPause ∨ finish ≤ now + g.pause finish now ∨
      ∃ d ∈ g.deadline, d ≤ now + g.pause finish now := by
  unfold Guard.pause
  cases hdeadline : g.deadline with
  | none =>
    have hcases : min (finish - now) longestPause = longestPause ∨
        finish ≤ now + min (finish - now) longestPause := by
      unfold Time at *
      omega
    exact hcases.imp_right .inl
  | some d =>
    have hcases : min (min (finish - now) longestPause) (d - now) = longestPause ∨
        finish ≤ now + min (min (finish - now) longestPause) (d - now) ∨
        d ≤ now + min (min (finish - now) longestPause) (d - now) := by
      unfold Time at *
      omega
    exact hcases.imp_right fun h => h.imp_right fun h => ⟨d, rfl, h⟩

namespace Watch.Timely

variable {w : Watch σ} {facts : Facts σ} (h : w.Timely facts) {g : Guard} {finish : Time} {s : σ}

include h

theorem look (signal : Option Signal) (s : σ) : facts.Onward s (w.look signal s).2 := by
  cases signal with
  | none => exact .refl facts s
  | some signal => exact h.isTriggered signal s

theorem le_polled (g : Guard) (s : σ) : facts.clock s ≤ (w.lap g s).polled := by
  apply Nat.le_trans (h.look g.signal s).clock
  exact h.le_now (w.look g.signal s).2

theorem le_now_lap (g : Guard) (s : σ) : facts.clock s ≤ (w.lap g s).now := by
  apply Nat.le_trans (h.le_polled g s)
  apply Nat.le_trans (h.now_le (w.look g.signal s).2)
  exact h.le_now (w.now (w.look g.signal s).2).2

theorem now_lap_le (g : Guard) (s : σ) : (w.lap g s).now ≤ facts.clock (w.lap g s).after :=
  h.now_le (w.now (w.look g.signal s).2).2

/-- The poll of a lap does not miss a signal that was triggered before. -/
theorem lap_triggered {signal : Signal} (hsignal : signal ∈ g.signal)
    (htriggered : facts.triggered s signal = true) : (w.lap g s).triggered = true := by
  show (w.look g.signal s).1 = true
  rw [Option.mem_def.1 hsignal]
  exact h.look_true signal s htriggered

/-- If it sees the signal, then the signal was triggered. -/
theorem of_lap_triggered (htriggered : (w.lap g s).triggered = true) :
    ∃ signal ∈ g.signal, facts.triggered (w.lap g s).after signal = true := by
  have hlook : (w.look g.signal s).1 = true := htriggered
  cases hsignal : g.signal with
  | none =>
    rw [hsignal] at hlook
    contradiction
  | some signal =>
    rw [hsignal] at hlook
    refine ⟨signal, rfl, ?_⟩
    have hlooked : facts.triggered (w.look g.signal s).2 signal = true := by
      rw [hsignal]
      exact h.of_look_true signal s hlook
    have honward := (h.now (w.look g.signal s).2).trans (h.now _)
    exact honward.triggered signal hlooked

/-- If the end of the wait is reached or the deadline has passed, one lap is left. -/
theorem waits_of_late (hlate : finish ≤ facts.clock s ∨ ∃ d ∈ g.deadline, d ≤ facts.clock s) :
    ∃ result, w.Waits g finish s [w.lap g s] result := by
  rcases (w.lap g s).turn_cases g finish with ⟨-, hover⟩ | ⟨-, -, hover⟩ | ⟨hsees, hlt, -⟩
  · exact ⟨_, .last hover⟩
  · exact ⟨_, .last hover⟩
  · rcases hlate with hfinish | ⟨d, hd, hle⟩
    · exact absurd (Nat.le_trans hfinish (h.le_now_lap g s)) (Nat.not_le.2 hlt)
    · exact absurd (.inr ⟨d, hd, Nat.le_trans hle (h.le_polled g s)⟩) hsees

/-- A wait of no more than `n` pauses of full length ends within `n + 1` laps. -/
theorem exists_waits (n : Nat) (hn : finish ≤ facts.clock s + n * longestPause) :
    ∃ laps result, w.Waits g finish s laps result ∧ laps.length ≤ n + 1 := by
  induction n generalizing s with
  | zero =>
    rw [Nat.zero_mul, Nat.add_zero] at hn
    obtain ⟨result, hwaits⟩ := h.waits_of_late (g := g) (.inl hn)
    exact ⟨_, result, hwaits, Nat.le_refl 1⟩
  | succ n ih =>
    rcases (w.lap g s).turn_cases g finish with ⟨-, hover⟩ | ⟨-, -, hover⟩ | ⟨-, hlt, hpause⟩
    · exact ⟨_, _, .last hover, Nat.le_add_left 1 (n + 1)⟩
    · exact ⟨_, _, .last hover, Nat.le_add_left 1 (n + 1)⟩
    · let lap := w.lap g s
      let rest := (w.sleep (g.pause finish lap.now) lap.after).2
      have hstart : facts.clock s ≤ lap.now := h.le_now_lap g s
      have hrest : lap.now + g.pause finish lap.now ≤ facts.clock rest := by
        apply Nat.le_trans _ (h.le_sleep (g.pause finish lap.now) lap.after)
        exact Nat.add_le_add_right (h.now_lap_le g s) _
      have hlast : finish ≤ facts.clock rest ∨ (∃ d ∈ g.deadline, d ≤ facts.clock rest) →
          ∃ laps result, w.Waits g finish s laps result ∧ laps.length ≤ n + 1 + 1 := by
        intro hlate
        obtain ⟨result, hwaits⟩ := h.waits_of_late hlate
        refine ⟨_, result, .pause hpause hwaits, ?_⟩
        show 2 ≤ n + 1 + 1
        omega
      rcases g.pause_reaches finish lap.now with hfull | hfinish | ⟨d, hd, hdeadline⟩
      · -- a pause of full length uses up two milliseconds of the wait
        have hn' : finish ≤ facts.clock rest + n * longestPause := by
          rw [hfull] at hrest
          rw [Nat.succ_mul] at hn
          unfold Time at *
          omega
        obtain ⟨laps, result, hwaits, hlength⟩ := ih hn'
        exact ⟨_, result, .pause hpause hwaits, Nat.succ_le_succ hlength⟩
      · exact hlast (.inl (Nat.le_trans hfinish hrest))
      · exact hlast (.inr ⟨d, hd, Nat.le_trans hdeadline hrest⟩)

/-- The turns that a wait is given are enough. -/
theorem exists_waits_waitUntil (g : Guard) (d : Duration) (s : σ) :
    ∃ laps, w.Waits g ((w.now s).1 + d.nanoseconds) (w.now s).2 laps (w.turnsOf g d s) ∧
      laps.length ≤ turnsFor d.nanoseconds := by
  have hpauses : (w.now s).1 + d.nanoseconds
      ≤ facts.clock (w.now s).2 + (d.nanoseconds / longestPause + 1) * longestPause := by
    have hstart := h.now_le s
    have hlength : longestPause = 2000000 := rfl
    rw [hlength]
    unfold Time at *
    omega
  obtain ⟨laps, result, hwaits, hlength⟩ := h.exists_waits (g := g) _ hpauses
  have hturns : laps.length ≤ turnsFor d.nanoseconds := Nat.le_succ_of_le hlength
  refine ⟨laps, ?_, hturns⟩
  rw [turnsOf, hwaits.waitUntil_eq hturns]
  exact hwaits

end Watch.Timely

-- ============================================================================
-- Clocks that only pauses move on
-- ============================================================================

namespace Watch.Exact

variable {w : Watch σ} {facts : Facts σ} (h : w.Exact facts) {g : Guard} {finish : Time} {s : σ}
  {laps : List (Lap σ)} {result : Option CancelReason × σ}

include h

theorem look (signal : Option Signal) (s : σ) :
    facts.clock (w.look signal s).2 = facts.clock s := by
  cases signal with
  | none => rfl
  | some signal => exact h.isTriggered signal s

theorem lap_now (g : Guard) (s : σ) : (w.lap g s).now = facts.clock s := by
  show (w.now (w.now (w.look g.signal s).2).2).1 = facts.clock s
  rw [h.now_eq, h.now, h.look]

theorem lap_after (g : Guard) (s : σ) : facts.clock (w.lap g s).after = facts.clock s := by
  show facts.clock (w.now (w.now (w.look g.signal s).2).2).2 = facts.clock s
  rw [h.now, h.now, h.look]

/-- A wait does not pass its end, nor the deadline. -/
theorem clock_le (hwaits : w.Waits g finish s laps result) {limit : Time}
    (hlimit : limit = finish ∨ limit ∈ g.deadline) (hs : facts.clock s ≤ limit) :
    facts.clock result.2 ≤ limit := by
  induction hwaits with
  | @last s answer hturn =>
    show facts.clock (w.lap g s).after ≤ limit
    rw [h.lap_after]
    exact hs
  | @pause s length laps result hturn _ ih =>
    apply ih
    rw [h.sleep, h.lap_after]
    have hlength : length ≤ limit - facts.clock s := by
      obtain ⟨-, -, rfl⟩ := Lap.turn_eq_pause_iff.1 hturn
      rw [h.lap_now]
      obtain ⟨hfinish, -, hdeadline⟩ := g.pause_le finish (facts.clock s)
      rcases hlimit with rfl | hlimit
      · exact hfinish
      · exact hdeadline limit hlimit
    unfold Time at *
    omega

end Watch.Exact

-- ============================================================================
-- A clock that looks move on
-- ============================================================================

/-- A clock that every look moves on by some time and that can show times up to a limit, and a
    signal that is triggered from a moment on. -/
def Watch.drifting (drift : Nat) (moment limit : Option Time) : Watch Time where
  isTriggered _ := fun t => (moment.any (· ≤ t), t + drift)
  now := fun t => (t, t + drift)
  sleep length := fun t => ((), t + length)
  latest := limit

/-- The state is the time, and the signal is triggered from the moment on. -/
def Facts.drifting (moment : Option Time) : Facts Time :=
  ⟨fun t _ => moment.any (· ≤ t), id⟩

theorem Facts.onward_drifting (moment : Option Time) {t u : Time} (h : t ≤ u) :
    (drifting moment).Onward t u := by
  refine ⟨fun _ htriggered => ?_, h⟩
  cases moment with
  | none => contradiction
  | some m =>
    have hm : m ≤ t := of_decide_eq_true htriggered
    exact decide_eq_true (Nat.le_trans hm h)

theorem Watch.timely_drifting (drift : Nat) (moment limit : Option Time) :
    (drifting drift moment limit).Timely (.drifting moment) where
  look_true _ _ h := h
  of_look_true signal t h :=
    (Facts.onward_drifting moment (Nat.le_add_right t drift)).triggered signal h
  le_now _ := Nat.le_refl _
  now_le t := Nat.le_add_right t drift
  isTriggered _ t := Facts.onward_drifting moment (Nat.le_add_right t drift)
  now t := Facts.onward_drifting moment (Nat.le_add_right t drift)
  le_sleep _ _ := Nat.le_refl _

theorem Watch.exact_drifting (moment limit : Option Time) :
    (drifting 0 moment limit).Exact (.drifting moment) :=
  ⟨fun _ => rfl, fun _ => rfl, fun _ _ => rfl, fun _ _ => rfl⟩

-- ============================================================================
-- What becomes of a wait
-- ============================================================================

/-- What a wait does that began in a state: its laps, the last one apart, and how it ends. -/
structure Watch.Waited (w : Watch σ) (facts : Facts σ) (g : Guard) (d : Duration) (s : σ)
    (earlier : List (Lap σ)) (last : Lap σ) (result : Option CancelReason × σ) : Prop where
  /-- The laps are all the laps of the wait, and they are few. -/
  ends : w.Waits g ((w.now s).1 + d.nanoseconds) (w.now s).2 (earlier ++ [last]) result
  length_le : (earlier ++ [last]).length ≤ turnsFor d.nanoseconds
  /-- No poll before the last one saw that the guard was over. -/
  quiet : ∀ lap ∈ earlier, ¬lap.Sees g
  /-- The wait is cut short just if the last poll saw so. -/
  cut : ∀ reason, result.1 = some reason ↔ last.Sees g ∧ last.reason = reason
  /-- The signal is the reason if it was triggered when that poll began, even if the deadline
      had passed as well; and only if it is triggered by the end. -/
  signal : (∀ signal ∈ g.signal, facts.triggered last.state signal = true →
      result.1 = some .signal) ∧
    (result.1 = some .signal → ∃ signal ∈ g.signal, facts.triggered result.2 signal = true)
  /-- If it is not cut short, the wait takes its whole length. -/
  full : result.1 = none →
    (∀ lap ∈ earlier ++ [last], ¬lap.Sees g) ∧
      facts.clock s + d.nanoseconds ≤ facts.clock result.2
  /-- A pause is short, and ends by the end of the wait and by the deadline. -/
  pauses : ∀ lap ∈ earlier ++ [last], ∀ length,
    lap.turn g ((w.now s).1 + d.nanoseconds) = .pause length →
      length ≤ longestPause ∧ length ≤ (w.now s).1 + d.nanoseconds - lap.now ∧
        ∀ deadline ∈ g.deadline, length ≤ deadline - lap.now
  /-- If the clock moves by pauses only, then the wait ends by its end and by the deadline. -/
  punctual : w.Exact facts → (∀ deadline ∈ g.deadline, facts.clock s < deadline) →
    facts.clock result.2 ≤ facts.clock s + d.nanoseconds ∧
      ∀ deadline ∈ g.deadline, facts.clock result.2 ≤ deadline

namespace Watch

variable {w : Watch σ} {facts : Facts σ}

theorem waited_turnsOf (h : w.Timely facts) (g : Guard) (d : Duration) (s : σ) :
    ∃ earlier last, w.Waited facts g d s earlier last (w.turnsOf g d s) := by
  obtain ⟨laps, hwaits, hlength⟩ := h.exists_waits_waitUntil g d s
  obtain ⟨earlier, last, rfl, hearlier, hlast, hturn, hafter⟩ := hwaits.exists_last
  have hcut : ∀ reason, (w.turnsOf g d s).1 = some reason ↔
      last.Sees g ∧ last.reason = reason := by
    intro reason
    rw [← Lap.turn_eq_over_some_iff, hturn, Turn.over.injEq]
  refine ⟨earlier, last, hwaits, hlength, fun lap hlap => (hearlier lap hlap).1, hcut,
    ⟨fun signal hsignal htriggered => ?_, fun hreason => ?_⟩, fun hnone => ?_,
    fun lap _ length hpause => ?_, fun hexact hbefore => ?_⟩
  · have hseen : last.triggered = true := by
      rw [hlast]
      exact h.lap_triggered hsignal htriggered
    exact (hcut .signal).2 ⟨.inl hseen, Lap.reason_eq_signal_iff.2 hseen⟩
  · have hseen : last.triggered = true :=
      Lap.reason_eq_signal_iff.1 ((hcut .signal).1 hreason).2
    rw [hlast] at hseen
    rw [hafter, hlast]
    exact h.of_lap_triggered hseen
  · rw [hnone] at hturn
    obtain ⟨hsees, hfinish⟩ := Lap.turn_eq_over_none_iff.1 hturn
    constructor
    · intro lap hlap
      rcases List.mem_append.1 hlap with hlap | hlap
      · exact (hearlier lap hlap).1
      · rw [List.mem_singleton.1 hlap]
        exact hsees
    · have hend : last.now ≤ facts.clock last.after := by
        rw [hlast]
        exact h.now_lap_le g last.state
      rw [hafter]
      exact Nat.le_trans (Nat.add_le_add_right (h.le_now s) _) (Nat.le_trans hfinish hend)
  · obtain ⟨-, -, rfl⟩ := Lap.turn_eq_pause_iff.1 hpause
    obtain ⟨hfinish, hlongest, hdeadline⟩ := g.pause_le _ lap.now
    exact ⟨hlongest, hfinish, hdeadline⟩
  · have hstart : facts.clock (w.now s).2 = facts.clock s := hexact.now s
    have hfinish : (w.now s).1 = facts.clock s := hexact.now_eq s
    rw [hfinish] at hwaits
    refine ⟨hexact.clock_le hwaits (.inl rfl) ?_, fun deadline hdeadline => ?_⟩
    · rw [hstart]
      exact Nat.le_add_right _ _
    · apply hexact.clock_le hwaits (.inr hdeadline)
      rw [hstart]
      exact Nat.le_of_lt (hbefore deadline hdeadline)

/-- If pauses move the clock on by their length at least, then every wait ends.  If the clock can
    show its end, then it ends at the first poll that sees that its guard is over, or else when
    its whole length has passed.  If not, it fails right after its first look at the clock, and
    neither polls nor pauses. -/
theorem wait_timely (h : w.Timely facts) (g : Guard) (d : Duration) (s : σ) :
    ((∀ limit ∈ w.latest, (w.now s).1 + d.nanoseconds ≤ limit) →
      ∃ answer after, w.wait g d s = (.ok answer, after) ∧
        ∃ earlier last, w.Waited facts g d s earlier last (answer, after)) ∧
    ((∃ limit ∈ w.latest, limit < (w.now s).1 + d.nanoseconds) →
      w.wait g d s = (.error .overflow, (w.now s).2)) := by
  constructor
  · intro hshows
    exact ⟨_, _, wait_of_shows (shows_eq_true_iff.2 hshows), waited_turnsOf h g d s⟩
  · intro hlate
    exact wait_of_not_shows (shows_eq_false_iff.2 hlate)

/-- With looks of a millisecond each, the deadline passes between a poll and the look at the end of
    the wait; the pause has no length, and the next poll sees the signal first.  With looks that
    take no time, the wait ends on its deadline.  The longest wait of all fails on a clock that
    counts seconds in 63 bits, though the signal is triggered. -/
theorem wait_timely_drifting :
    let moment := some (4 * nanosPerMilli)
    let limit := some (UInt64.size / 2 * nanosPerSecond - 1)
    let slow := drifting nanosPerMilli moment limit
    let prompt := drifting 0 moment limit
    let guard : Guard := ⟨some ⟨"stop"⟩, some (3 * nanosPerMilli)⟩
    let length := Duration.ofMillis 5
    let longest : Duration := ⟨UInt64.size * nanosPerSecond - 1, by decide⟩
    (slow.Timely (.drifting moment) ∧
      (slow.lap guard nanosPerMilli).turn guard length.nanoseconds = .pause 0 ∧
      slow.wait guard length 0 = (.ok (some .signal), 7 * nanosPerMilli) ∧
      ∃ earlier last, slow.Waited (.drifting moment) guard length 0 earlier last
        (some .signal, 7 * nanosPerMilli)) ∧
    (prompt.Timely (.drifting moment) ∧ prompt.Exact (.drifting moment) ∧
      prompt.wait guard length 0 = (.ok (some .deadline), 3 * nanosPerMilli) ∧
      ∃ earlier last, prompt.Waited (.drifting moment) guard length 0 earlier last
        (some .deadline, 3 * nanosPerMilli)) ∧
    (slow.isTriggered ⟨"stop"⟩ (4 * nanosPerMilli)).1 = true ∧
      slow.wait guard longest (4 * nanosPerMilli) = (.error .overflow, 5 * nanosPerMilli) := by
  intro moment limit slow prompt guard length longest
  have hslow : slow.wait guard length 0 = (.ok (some .signal), 7 * nanosPerMilli) :=
    Prod.ext (by decide +kernel) (by decide +kernel)
  have hprompt : prompt.wait guard length 0 = (.ok (some .deadline), 3 * nanosPerMilli) :=
    Prod.ext (by decide +kernel) (by decide +kernel)
  refine ⟨⟨timely_drifting _ _ _, by decide +kernel, hslow, ?_⟩,
    ⟨timely_drifting _ _ _, exact_drifting _ _, hprompt, ?_⟩, by decide, ?_⟩
  · obtain ⟨answer, after, hwait, hwaited⟩ :=
      (wait_timely (timely_drifting nanosPerMilli moment limit) guard length 0).1 (by decide)
    obtain ⟨⟨⟩, ⟨⟩⟩ := hwait.symm.trans hslow
    exact hwaited
  · obtain ⟨answer, after, hwait, hwaited⟩ :=
      (wait_timely (timely_drifting 0 moment limit) guard length 0).1 (by decide)
    obtain ⟨⟨⟩, ⟨⟩⟩ := hwait.symm.trans hprompt
    exact hwaited
  · exact (wait_timely (timely_drifting nanosPerMilli moment limit) guard longest
      (4 * nanosPerMilli)).2 (by decide)

end Watch
end VersionedStore.Update
