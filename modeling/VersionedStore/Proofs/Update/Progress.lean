/-
  VersionedStore.Proofs.Update.Progress

  Running requests on surroundings that are part of something larger.

  `Keeps` says that an act leaves something alone, `Projects` that it does on a
  part of a state what another act does on that part.  Both carry over from
  single looks and calls to polls, waits and whole runs, so surroundings can be
  watched, counted or shared without changing what a request does.

  `Request.run_induction` is the one induction over a run; it gives that what each
  observation keeps holds at the end (`Request.runFrom_invariant`).
-/
import Mathlib.Logic.Function.Iterate
import VersionedStore.Update.Phase

namespace VersionedStore.Update

variable {σ τ α β : Type}

-- ============================================================================
-- Polls and waits, look by look
-- ============================================================================

namespace Watch

/-- Look at a signal, if there is one. -/
def look (w : Watch σ) : Option Signal → StateM σ Bool
  | some signal => w.isTriggered signal
  | none => pure false

/-- Do what a turn of a wait has led to. -/
def follow (w : Watch σ) (g : Guard) (finish : Time) (turns : Nat) :
    Turn → StateM σ (Option CancelReason)
  | .over reason => pure reason
  | .pause length => w.sleep length >>= fun _ => w.waitUntil g finish turns

theorem poll_eq (w : Watch σ) (g : Guard) :
    w.poll g = w.look g.signal >>= fun triggered => w.now >>= fun now =>
      pure (g.verdict triggered now) := by
  unfold poll
  cases g.signal <;> rfl

theorem waitUntil_succ (w : Watch σ) (g : Guard) (finish : Time) (turns : Nat) :
    w.waitUntil g finish (turns + 1)
      = w.look g.signal >>= fun triggered => w.now >>= fun polled => w.now >>= fun now =>
        w.follow g finish turns (g.turn finish triggered polled now) := by
  rw [waitUntil]
  cases g.signal <;> rfl

end Watch

-- ============================================================================
-- Leaving something alone
-- ============================================================================

/-- Whatever holds before an act holds after it. -/
def Keeps (P : σ → Prop) (act : StateM σ α) : Prop :=
  ∀ s, P s → P (act s).2

theorem Keeps.pure {P : σ → Prop} (a : α) : Keeps P (Pure.pure a : StateM σ α) :=
  fun _ h => h

theorem Keeps.bind {P : σ → Prop} {act : StateM σ α} {f : α → StateM σ β} (hact : Keeps P act)
    (hf : ∀ a, Keeps P (f a)) : Keeps P (act >>= f) :=
  fun s h => hf _ _ (hact s h)

/-- Whatever holds before a look at the signals or the clock holds after it. -/
structure Watch.Keeps (w : Watch σ) (P : σ → Prop) : Prop where
  isTriggered : ∀ signal, Update.Keeps P (w.isTriggered signal)
  now : Update.Keeps P w.now
  sleep : ∀ length, Update.Keeps P (w.sleep length)

namespace Watch.Keeps

variable {w : Watch σ} {P : σ → Prop}

theorem look (h : w.Keeps P) (signal : Option Signal) : Update.Keeps P (w.look signal) := by
  cases signal with
  | none => exact .pure false
  | some signal => exact h.isTriggered signal

theorem poll (h : w.Keeps P) (g : Guard) : Update.Keeps P (w.poll g) := by
  rw [w.poll_eq]
  exact (h.look g.signal).bind fun _ => h.now.bind fun _ => .pure _

theorem waitUntil (h : w.Keeps P) (g : Guard) (finish : Time) (turns : Nat) :
    Update.Keeps P (w.waitUntil g finish turns) := by
  induction turns with
  | zero => exact .pure none
  | succ turns ih =>
    have hfollow : ∀ turn, Update.Keeps P (w.follow g finish turns turn) := by
      rintro (reason | length)
      · exact .pure reason
      · exact (h.sleep length).bind fun _ => ih
    rw [w.waitUntil_succ]
    exact (h.look g.signal).bind fun _ => h.now.bind fun _ => h.now.bind fun _ => hfollow _

theorem wait (h : w.Keeps P) (g : Guard) (d : Duration) : Update.Keeps P (w.wait g d) := by
  intro s hs
  have hnow := h.now s hs
  cases hshows : w.shows ((w.now s).1 + d.nanoseconds) with
  | true =>
    rw [Watch.wait_of_shows hshows]
    exact h.waitUntil g _ _ _ hnow
  | false =>
    rw [Watch.wait_of_not_shows hshows]
    exact hnow

end Watch.Keeps

-- ============================================================================
-- Acting on a part
-- ============================================================================

/-- An act does on a part of a state what another act does on that part alone. -/
def Projects (part : τ → σ) (act : StateM τ α) (image : StateM σ α) : Prop :=
  ∀ t, (act t).1 = (image (part t)).1 ∧ part (act t).2 = (image (part t)).2

theorem Projects.pure {part : τ → σ} (a : α) :
    Projects part (Pure.pure a : StateM τ α) (Pure.pure a) :=
  fun _ => ⟨rfl, rfl⟩

theorem Projects.bind {part : τ → σ} {act : StateM τ α} {image : StateM σ α}
    {f : α → StateM τ β} {g : α → StateM σ β} (hact : Projects part act image)
    (hf : ∀ a, Projects part (f a) (g a)) : Projects part (act >>= f) (image >>= g) := by
  intro t
  obtain ⟨hvalue, hpart⟩ := hact t
  obtain ⟨hvalue', hpart'⟩ := hf (act t).1 (act t).2
  rw [hpart] at hvalue' hpart'
  constructor
  · show (f (act t).1 (act t).2).1 = (g (image (part t)).1 (image (part t)).2).1
    rw [hvalue', hvalue]
  · show part (f (act t).1 (act t).2).2 = (g (image (part t)).1 (image (part t)).2).2
    rw [hpart', hvalue]

theorem Projects.map {part : τ → σ} {act : StateM τ α} {image : StateM σ α} (f : α → β)
    (hact : Projects part act image) : Projects part (f <$> act) (f <$> image) :=
  fun t => ⟨congrArg f (hact t).1, (hact t).2⟩

/-- Looks at the signals and the clock are looks at those of a part. -/
structure Watch.Projects (w : Watch τ) (v : Watch σ) (part : τ → σ) : Prop where
  isTriggered : ∀ signal, Update.Projects part (w.isTriggered signal) (v.isTriggered signal)
  now : Update.Projects part w.now v.now
  sleep : ∀ length, Update.Projects part (w.sleep length) (v.sleep length)
  latest : w.latest = v.latest

namespace Watch.Projects

variable {w : Watch τ} {v : Watch σ} {part : τ → σ}

theorem look (h : w.Projects v part) (signal : Option Signal) :
    Update.Projects part (w.look signal) (v.look signal) := by
  cases signal with
  | none => exact .pure false
  | some signal => exact h.isTriggered signal

theorem poll (h : w.Projects v part) (g : Guard) :
    Update.Projects part (w.poll g) (v.poll g) := by
  rw [w.poll_eq, v.poll_eq]
  exact (h.look g.signal).bind fun _ => h.now.bind fun _ => .pure _

theorem waitUntil (h : w.Projects v part) (g : Guard) (finish : Time) (turns : Nat) :
    Update.Projects part (w.waitUntil g finish turns) (v.waitUntil g finish turns) := by
  induction turns with
  | zero => exact .pure none
  | succ turns ih =>
    have hfollow : ∀ turn, Update.Projects part (w.follow g finish turns turn)
        (v.follow g finish turns turn) := by
      rintro (reason | length)
      · exact .pure reason
      · exact (h.sleep length).bind fun _ => ih
    rw [w.waitUntil_succ, v.waitUntil_succ]
    exact (h.look g.signal).bind fun _ => h.now.bind fun _ => h.now.bind fun _ => hfollow _

theorem shows (h : w.Projects v part) (t : Time) : w.shows t = v.shows t := by
  rw [Watch.shows, Watch.shows, h.latest]

theorem wait (h : w.Projects v part) (g : Guard) (d : Duration) :
    Update.Projects part (w.wait g d) (v.wait g d) := by
  intro t
  obtain ⟨hstart, hpart⟩ := h.now t
  cases hshows : w.shows ((w.now t).1 + d.nanoseconds) with
  | true =>
    have hshows' : v.shows ((v.now (part t)).1 + d.nanoseconds) = true := by
      rw [← h.shows, ← hstart, hshows]
    rw [Watch.wait_of_shows hshows, Watch.wait_of_shows hshows', ← hstart, ← hpart]
    obtain ⟨hcut, hend⟩ := h.waitUntil g ((w.now t).1 + d.nanoseconds) (turnsFor d.nanoseconds)
      (w.now t).2
    exact ⟨congrArg Except.ok hcut, hend⟩
  | false =>
    have hshows' : v.shows ((v.now (part t)).1 + d.nanoseconds) = false := by
      rw [← h.shows, ← hstart, hshows]
    rw [Watch.wait_of_not_shows hshows, Watch.wait_of_not_shows hshows']
    exact ⟨rfl, hpart⟩

end Watch.Projects

/-- Surroundings whose reads, writes and looks are those of a part. -/
structure Surroundings.Projects (around : Surroundings τ) (inner : Surroundings σ)
    (part : τ → σ) : Prop where
  read : ∀ id, Update.Projects part (around.store.read id) (inner.store.read id)
  write : ∀ id expected fields, Update.Projects part (around.store.write id expected fields)
    (inner.store.write id expected fields)
  watch : around.watch.Projects inner.watch part

-- ============================================================================
-- Runs
-- ============================================================================

namespace Request

variable (req : Request) (rules : Rules)

theorem next_projects {around : Surroundings τ} {inner : Surroundings σ} {part : τ → σ}
    (h : around.Projects inner part) (p : Phase) :
    Projects part (req.next rules around p) (req.next rules inner p) := by
  cases p with
  | entering => exact (h.watch.poll _).map _
  | reading => exact (h.read _).map _
  | ready attempt => exact (h.watch.poll _).map _
  | writing attempt => exact (h.write _ _ _).map _
  | waiting current made left => exact (h.watch.wait _ _).map _
  | rechecking current made left => exact (h.watch.poll _).map _
  | finished result => exact .pure _

variable {req rules}

theorem runFrom_finished (around : Surroundings σ) (result : Result) (s : σ) :
    req.runFrom rules around (.finished result) s = (result, s) := by
  rw [runFrom]
  split
  next r hr => rw [← Option.some.inj hr]
  next hr => exact absurd hr (by simp [Phase.result?])

/-- A run from a phase is one observation, and a run from where that leads. -/
theorem runFrom_next (around : Surroundings σ) {p : Phase} (h : p.result? = none) (s : σ) :
    req.runFrom rules around p s
      = req.runFrom rules around (req.next rules around p s).1 (req.next rules around p s).2 := by
  conv => lhs; rw [runFrom]
  split
  next r hr => exact absurd (hr.symm.trans h) (by simp)
  next => rfl

/-- Induction over the observations of a run, whatever is observed. -/
theorem run_induction (req : Request) (rules : Rules) (around : Surroundings σ)
    {P : Phase → σ → Prop}
    (finished : ∀ result s, P (.finished result) s)
    (next : ∀ p s, p.result? = none →
      P (req.next rules around p s).1 (req.next rules around p s).2 → P p s)
    (p : Phase) (s : σ) : P p s := by
  induction hrank : p.rank rules using Nat.strongRecOn generalizing p s with
  | ind n ih =>
    cases hp : p.result? with
    | some result =>
      cases p with
      | finished r => exact finished r s
      | _ => simp [Phase.result?] at hp
    | none => exact next p s hp (ih _ (hrank ▸ rank_next_lt around p s hp) _ _ rfl)

/-- What each observation of a request keeps holds at its end. -/
theorem runFrom_invariant (around : Surroundings σ) (P : Phase → σ → Prop)
    (hstep : ∀ p s, p.result? = none → P p s →
      P (req.next rules around p s).1 (req.next rules around p s).2)
    (p : Phase) (s : σ) (h : P p s) :
    P (.finished (req.runFrom rules around p s).1) (req.runFrom rules around p s).2 := by
  induction p, s using run_induction req rules around with
  | finished result s =>
    rw [runFrom_finished]
    exact h
  | next p s hp ih =>
    rw [runFrom_next around hp]
    exact ih (hstep p s hp h)

/-- A run on surroundings is a run on the part that they project to. -/
theorem runFrom_projects (req : Request) (rules : Rules) {around : Surroundings τ}
    {inner : Surroundings σ} {part : τ → σ}
    (h : around.Projects inner part) (p : Phase) :
    Projects part (req.runFrom rules around p) (req.runFrom rules inner p) := by
  intro t
  induction p, t using run_induction req rules around with
  | finished result t =>
    rw [runFrom_finished, runFrom_finished]
    exact ⟨rfl, rfl⟩
  | next p t hp ih =>
    obtain ⟨hphase, hpart⟩ := req.next_projects rules h p t
    rw [runFrom_next around hp, runFrom_next inner hp, ← hphase, ← hpart]
    exact ih

/-- Let a request make one observation. -/
def observe (req : Request) (rules : Rules) (around : Surroundings σ) (ps : Phase × σ) :
    Phase × σ :=
  req.next rules around ps.1 ps.2

/-- A run ends after no more observations than the rank of its phase. -/
theorem exists_iterate_observe (around : Surroundings σ) (p : Phase) (s : σ) :
    ∃ n ≤ p.rank rules, (req.observe rules around)^[n] (p, s)
      = (.finished (req.runFrom rules around p s).1, (req.runFrom rules around p s).2) := by
  induction p, s using run_induction req rules around with
  | finished result s =>
    refine ⟨0, Nat.zero_le _, ?_⟩
    rw [runFrom_finished]
    rfl
  | next p s hp ih =>
    obtain ⟨n, hn, hiterate⟩ := ih
    have hlt : (req.next rules around p s).1.rank rules < p.rank rules := rank_next_lt around p s hp
    refine ⟨n + 1, by omega, ?_⟩
    rw [runFrom_next around hp]
    exact hiterate

end Request

end VersionedStore.Update
