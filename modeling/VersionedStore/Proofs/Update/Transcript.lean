/-
  VersionedStore.Proofs.Update.Transcript

  What a request says to its surroundings, and what it is told.

  `Surroundings.transcribed` writes down every call of the store with its
  answer, and every look at a signal or the clock; a request cannot tell the
  difference (`projects_transcribed`).

  `Request.Step` says once what each observation of a request can be and what it
  leads to (`next_step`); nothing after it opens a poll, a wait or a call.
-/
import VersionedStore.Proofs.Update.Progress

namespace VersionedStore.Update

/-- A call of a store, with its answer. -/
inductive Call where
  | read (id : RecordId) (answer : Except StoreError (Option Record))
  | create (fields : Fields) (answer : Except StoreError Record)
  | write (id : RecordId) (expected : Version) (fields : Fields)
      (answer : Except StoreError WriteOutcome)
  | delete (id : RecordId) (expected : Version) (answer : Except StoreError WriteOutcome)
  | list (answer : Except StoreError (List Record))

/-- Something said or seen in the surroundings. -/
inductive Sight where
  | called (call : Call)
  | looked (signal : Signal) (triggered : Bool)
  | timed (now : Time)
  | slept (length : Nat)

/-- The call of the store, if it is one. -/
def Sight.call? : Sight → Option Call
  | called call => some call
  | looked .. | timed _ | slept _ => none

/-- A state, and all that was seen on the way to it, the oldest first. -/
structure Transcribed (σ : Type) where
  inner : σ
  seen : List Sight

variable {σ α : Type}

/-- The calls of the store. -/
def Transcribed.calls (t : Transcribed σ) : List Call :=
  t.seen.filterMap Sight.call?

/-- Act, and write down what was seen. -/
def noting (note : α → Sight) (act : StateM σ α) : StateM (Transcribed σ) α := fun t =>
  ((act t.inner).1, ⟨(act t.inner).2, t.seen ++ [note (act t.inner).1]⟩)

/-- Signals and the clock, with every look written down. -/
def Watch.transcribed (w : Watch σ) : Watch (Transcribed σ) where
  isTriggered signal := noting (.looked signal) (w.isTriggered signal)
  now := noting .timed w.now
  sleep length := noting (fun _ => .slept length) (w.sleep length)
  latest := w.latest

/-- Surroundings with everything that is said and seen written down. -/
def Surroundings.transcribed (around : Surroundings σ) : Surroundings (Transcribed σ) where
  store :=
    { read := fun id => noting (.called <| .read id ·) (around.store.read id)
      create := fun fields => noting (.called <| .create fields ·) (around.store.create fields)
      write := fun id expected fields =>
        noting (.called <| .write id expected fields ·) (around.store.write id expected fields)
      delete := fun id expected =>
        noting (.called <| .delete id expected ·) (around.store.delete id expected)
      list := noting (.called <| .list ·) around.store.list }
  watch := around.watch.transcribed

theorem projects_noting (note : α → Sight) (act : StateM σ α) :
    Projects Transcribed.inner (noting note act) act :=
  fun _ => ⟨rfl, rfl⟩

/-- Writing things down changes nothing. -/
theorem projects_transcribed (around : Surroundings σ) :
    around.transcribed.Projects around Transcribed.inner where
  read _ := projects_noting _ _
  write _ _ _ := projects_noting _ _
  watch :=
    { isTriggered := fun _ => projects_noting _ _
      now := projects_noting _ _
      sleep := fun _ => projects_noting _ _
      latest := rfl }

-- ============================================================================
-- Polls and waits
-- ============================================================================

/-- What a poll sees, and what it tells of it. -/
inductive Guard.Polled (g : Guard) : List Sight → Option CancelReason → Prop where
  | unsignalled {now : Time} (hsignal : g.signal = none) :
      Polled g [.timed now] (g.verdict false now)
  | signalled {signal : Signal} {triggered : Bool} {now : Time}
      (hsignal : g.signal = some signal) :
      Polled g [.looked signal triggered, .timed now] (g.verdict triggered now)

theorem Guard.Polled.calls {g : Guard} {sights : List Sight} {verdict : Option CancelReason}
    (h : g.Polled sights verdict) : sights.filterMap Sight.call? = [] := by
  cases h <;> rfl

theorem polled_transcribed (w : Watch σ) (g : Guard) (t : Transcribed σ) :
    ∃ sights, g.Polled sights (w.transcribed.poll g t).1 ∧
      (w.transcribed.poll g t).2.seen = t.seen ++ sights := by
  rw [w.transcribed.poll_eq]
  cases hsignal : g.signal with
  | none => exact ⟨_, .unsignalled hsignal, rfl⟩
  | some signal => exact ⟨_, .signalled hsignal, List.append_assoc ..⟩

/-- No call of the store was made on the way from one state to another. -/
def Transcribed.Uncalled (t u : Transcribed σ) : Prop :=
  ∃ sights, u.seen = t.seen ++ sights ∧ sights.filterMap Sight.call? = []

theorem keeps_uncalled_noting (t : Transcribed σ) {note : α → Sight} (act : StateM σ α)
    (hnote : ∀ a, (note a).call? = none) : Keeps t.Uncalled (noting note act) := by
  rintro u ⟨sights, hseen, hcalls⟩
  refine ⟨sights ++ [note (act u.inner).1], ?_, ?_⟩
  · simp [noting, hseen]
  · simp [hcalls, hnote]

theorem uncalled_wait (w : Watch σ) (g : Guard) (d : Duration) (t : Transcribed σ) :
    t.Uncalled (w.transcribed.wait g d t).2 := by
  have hkeeps : w.transcribed.Keeps t.Uncalled :=
    ⟨fun _ => keeps_uncalled_noting t _ fun _ => rfl, keeps_uncalled_noting t _ fun _ => rfl,
      fun _ => keeps_uncalled_noting t _ fun _ => rfl⟩
  exact hkeeps.wait g d t ⟨[], (List.append_nil _).symm, rfl⟩

/-- A wait that fails has seen a time to which the clock cannot add the wait. -/
theorem wait_transcribed_error (w : Watch σ) (g : Guard) (d : Duration) (t : Transcribed σ)
    {e : ClockError} (h : (w.transcribed.wait g d t).1 = .error e) :
    e = .overflow ∧ ∃ now, (∃ latest ∈ w.latest, latest < now + d.nanoseconds) ∧
      (w.transcribed.wait g d t).2.seen = t.seen ++ [.timed now] := by
  cases hshows : w.transcribed.shows ((w.transcribed.now t).1 + d.nanoseconds) with
  | true =>
    rw [Watch.wait_of_shows hshows] at h
    contradiction
  | false =>
    rw [Watch.wait_of_not_shows hshows] at h ⊢
    exact ⟨(Except.error.inj h).symm, _, Watch.shows_eq_false_iff.1 hshows, rfl⟩

-- ============================================================================
-- What an observation can be
-- ============================================================================

/-- What a request can see in one observation, and the phase that this leads to, on a clock that
    can show times up to `latest`. -/
inductive Request.Step (req : Request) (rules : Rules) (latest : Option Time) :
    Phase → List Sight → Phase → Prop where
  | enters {sights : List Sight} {verdict : Option CancelReason}
      (hpoll : req.guard.Polled sights verdict) :
      Step req rules latest .entering sights (req.afterEntry verdict)
  | reads {answer : Except StoreError (Option Record)} :
      Step req rules latest .reading [.called (.read req.id answer)] (req.afterRead rules answer)
  | polls {attempt : Attempt} {sights : List Sight} {verdict : Option CancelReason}
      (hpoll : req.guard.Polled sights verdict) :
      Step req rules latest (.ready attempt) sights (req.afterReady attempt verdict)
  | writes {attempt : Attempt} {answer : Except StoreError WriteOutcome} :
      Step req rules latest (.writing attempt)
        [.called (.write req.id attempt.expected attempt.candidate answer)]
        (req.afterWrite rules attempt answer)
  | waits {current : Record} {made left : Nat} {sights : List Sight} {cut : Option CancelReason}
      (hcalls : sights.filterMap Sight.call? = []) :
      Step req rules latest (.waiting current made left) sights
        (req.afterWait rules current made left (.ok cut))
  /-- The clock cannot show the end of the wait. -/
  | overruns {current : Record} {made left : Nat} {now : Time}
      (hlate : ∃ limit ∈ latest, limit < now + rules.policy.backoff.nanoseconds) :
      Step req rules latest (.waiting current made left) [.timed now]
        (req.afterWait rules current made left (.error .overflow))
  | rechecks {current : Record} {made left : Nat} {sights : List Sight}
      {verdict : Option CancelReason} (hpoll : req.guard.Polled sights verdict) :
      Step req rules latest (.rechecking current made left) sights
        (req.afterRecheck rules current made left verdict)

theorem Request.next_step (req : Request) (rules : Rules) (around : Surroundings σ) {p : Phase}
    (hp : p.result? = none) (t : Transcribed σ) :
    ∃ sights,
      req.Step rules around.watch.latest p sights (req.next rules around.transcribed p t).1 ∧
      (req.next rules around.transcribed p t).2.seen = t.seen ++ sights := by
  cases p with
  | entering =>
    obtain ⟨sights, hpoll, hseen⟩ := polled_transcribed around.watch req.guard t
    exact ⟨sights, .enters hpoll, hseen⟩
  | reading => exact ⟨_, .reads, rfl⟩
  | ready attempt =>
    obtain ⟨sights, hpoll, hseen⟩ := polled_transcribed around.watch req.guard t
    exact ⟨sights, .polls hpoll, hseen⟩
  | writing attempt => exact ⟨_, .writes, rfl⟩
  | waiting current made left =>
    let d := rules.policy.backoff
    show ∃ sights, req.Step rules around.watch.latest _ sights
      (req.afterWait rules current made left (around.watch.transcribed.wait req.guard d t).1) ∧
      (around.watch.transcribed.wait req.guard d t).2.seen = t.seen ++ sights
    cases houtcome : (around.watch.transcribed.wait req.guard d t).1 with
    | ok cut =>
      obtain ⟨sights, hseen, hcalls⟩ := uncalled_wait around.watch req.guard d t
      exact ⟨sights, .waits hcalls, hseen⟩
    | error e =>
      obtain ⟨rfl, now, hlate, hseen⟩ := wait_transcribed_error around.watch req.guard d t houtcome
      exact ⟨[.timed now], .overruns hlate, hseen⟩
  | rechecking current made left =>
    obtain ⟨sights, hpoll, hseen⟩ := polled_transcribed around.watch req.guard t
    exact ⟨sights, .rechecks hpoll, hseen⟩
  | finished result => exact absurd hp (by simp [Phase.result?])

end VersionedStore.Update
