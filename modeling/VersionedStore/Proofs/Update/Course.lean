/-
  VersionedStore.Proofs.Update.Course

  The polls and the store calls of a request, in their order.

  A `Moment` is one poll or one call, with the state that the surroundings were
  in when it began; the `course` of a request is the list of its moments, the
  polls inside of waits included.  `calls_course` says that the calls of a course
  are those that the store is told of, no more and no fewer.
-/
import VersionedStore.Proofs.Update.Transcript

namespace VersionedStore.Update

variable {σ : Type}

/-- What a request does at one moment: ask whether to give up, or call the store. -/
inductive Act where
  | poll (verdict : Option CancelReason)
  | call (call : Call)

/-- An act, and the state of the surroundings when it began. -/
structure Moment (σ : Type) where
  state : σ
  act : Act

namespace Moment

/-- The call, if it is one. -/
def call? (m : Moment σ) : Option Call :=
  match m.act with
  | .call call => some call
  | .poll _ => none

/-- The reason to give up, if it is a poll that saw one. -/
def reason? (m : Moment σ) : Option CancelReason :=
  match m.act with
  | .poll verdict => verdict
  | .call _ => none

/-- A conditional write was issued. -/
def isWrite (m : Moment σ) : Bool :=
  match m.act with
  | .call (.write ..) => true
  | _ => false

/-- A conditional write took place. -/
def isCommit (m : Moment σ) : Bool :=
  match m.act with
  | .call (.write _ _ _ (.ok (.committed _))) => true
  | _ => false

theorem isWrite_of_call? {m : Moment σ} (hm : m.call? = none) : m.isWrite = false := by
  obtain ⟨state, act⟩ := m
  cases act with
  | poll => rfl
  | call => contradiction

theorem countP_isWrite_of_quiet {l : List (Moment σ)} (hl : ∀ m ∈ l, m.call? = none) :
    l.countP isWrite = 0 := by
  rw [List.countP_eq_zero]
  intro m hm
  rw [isWrite_of_call? (hl m hm)]
  exact Bool.false_ne_true

end Moment

-- ============================================================================
-- Waits
-- ============================================================================

namespace Watch

/-- The polls of up to `turns` turns of a wait that ends at `finish`. -/
def polls (w : Watch σ) (g : Guard) (finish : Time) : Nat → σ → List (Moment σ)
  | 0, _ => []
  | turns + 1, s =>
    ⟨s, .poll (w.poll g s).1⟩ ::
      match (w.poll g s).1 with
      | some _ => []
      | none =>
        let now := w.now (w.poll g s).2
        if finish ≤ now.1 then []
        else w.polls g finish turns (w.sleep (g.pause finish now.1) now.2).2

/-- The polls of a wait.  There are none if the clock cannot show its end. -/
def pollsOfWait (w : Watch σ) (g : Guard) (d : Duration) (s : σ) : List (Moment σ) :=
  let finish := (w.now s).1 + d.nanoseconds
  if w.shows finish then w.polls g finish (turnsFor d.nanoseconds) (w.now s).2 else []

variable {w : Watch σ} {g : Guard} {finish : Time} {turns : Nat} {s : σ}

theorem pollsOfWait_of_shows {d : Duration} (h : w.shows ((w.now s).1 + d.nanoseconds) = true) :
    w.pollsOfWait g d s
      = w.polls g ((w.now s).1 + d.nanoseconds) (turnsFor d.nanoseconds) (w.now s).2 :=
  if_pos h

theorem pollsOfWait_of_not_shows {d : Duration}
    (h : w.shows ((w.now s).1 + d.nanoseconds) = false) : w.pollsOfWait g d s = [] :=
  if_neg (Bool.eq_false_iff.1 h)

/-- A turn of a wait is a poll, and if that saw nothing, a look at the end of the wait. -/
theorem waitUntil_step :
    w.waitUntil g finish (turns + 1) s
      = match (w.poll g s).1 with
        | some reason => (some reason, (w.now (w.poll g s).2).2)
        | none =>
          let now := w.now (w.poll g s).2
          if finish ≤ now.1 then (none, now.2)
          else w.waitUntil g finish turns (w.sleep (g.pause finish now.1) now.2).2 := by
  rw [waitUntil_succ, poll_eq]
  let looked := w.look g.signal s
  let polled := w.now looked.2
  let now := w.now polled.2
  show w.follow g finish turns (g.turn finish looked.1 polled.1 now.1) now.2
    = match g.verdict looked.1 polled.1 with
      | some reason => (some reason, now.2)
      | none =>
        if finish ≤ now.1 then (none, now.2)
        else w.waitUntil g finish turns (w.sleep (g.pause finish now.1) now.2).2
  unfold Guard.turn
  cases g.verdict looked.1 polled.1 with
  | some reason => rfl
  | none =>
    by_cases hover : finish ≤ now.1
    · simp only [if_pos hover]
      rfl
    · simp only [if_neg hover]
      rfl

theorem call?_of_mem_polls {m : Moment σ} (hm : m ∈ w.polls g finish turns s) :
    m.call? = none := by
  induction turns generalizing s with
  | zero => simp [polls] at hm
  | succ turns ih =>
    rw [polls, List.mem_cons] at hm
    rcases hm with rfl | hm
    · rfl
    · split at hm
      · simp at hm
      · dsimp only at hm
        split at hm
        · simp at hm
        · exact ih hm

theorem call?_of_mem_pollsOfWait {d : Duration} {m : Moment σ} (hm : m ∈ w.pollsOfWait g d s) :
    m.call? = none := by
  cases hshows : w.shows ((w.now s).1 + d.nanoseconds) with
  | true =>
    rw [pollsOfWait_of_shows hshows] at hm
    exact call?_of_mem_polls hm
  | false =>
    rw [pollsOfWait_of_not_shows hshows] at hm
    contradiction

end Watch

-- ============================================================================
-- Courses
-- ============================================================================

namespace Request

/-- The moments of the observation that a phase is about to make. -/
def moments (req : Request) (rules : Rules) (around : Surroundings σ) (p : Phase) (s : σ) :
    List (Moment σ) :=
  match p with
  | .entering | .ready _ | .rechecking .. => [⟨s, .poll (around.watch.poll req.guard s).1⟩]
  | .reading => [⟨s, .call (.read req.id (around.store.read req.id s).1)⟩]
  | .writing a =>
    [⟨s, .call (.write req.id a.expected a.candidate
      (around.store.write req.id a.expected a.candidate s).1)⟩]
  | .waiting .. => around.watch.pollsOfWait req.guard rules.policy.backoff s
  | .finished _ => []

/-- The moments of a request from a phase to its end. -/
def course (req : Request) (rules : Rules) (around : Surroundings σ) (p : Phase) (s : σ) :
    List (Moment σ) :=
  match _h : p.result? with
  | some _ => []
  | none =>
    req.moments rules around p s
      ++ req.course rules around (req.next rules around p s).1 (req.next rules around p s).2
termination_by p.rank rules
decreasing_by exact rank_next_lt around p s (by assumption)

variable {req : Request} {rules : Rules} {around : Surroundings σ}

theorem course_finished (result : Result) (s : σ) :
    req.course rules around (.finished result) s = [] := by
  rw [course]
  split
  next => rfl
  next hp => exact absurd hp (by simp [Phase.result?])

theorem course_next {p : Phase} (hp : p.result? = none) (s : σ) :
    req.course rules around p s
      = req.moments rules around p s
        ++ req.course rules around (req.next rules around p s).1
          (req.next rules around p s).2 := by
  conv => lhs; rw [course]
  split
  next r hr => exact absurd (hr.symm.trans hp) (by simp)
  next => rfl

/-- One observation tells the store of the calls among its moments. -/
theorem calls_next {p : Phase} (hp : p.result? = none) (t : Transcribed σ) :
    (req.next rules around.transcribed p t).2.calls
      = t.calls ++ (req.moments rules around p t.inner).filterMap Moment.call? := by
  have hquiet : ∀ {u : Transcribed σ}, t.Uncalled u → u.calls = t.calls := by
    rintro u ⟨sights, hseen, hcalls⟩
    rw [Transcribed.calls, hseen, List.filterMap_append, hcalls, List.append_nil]
    rfl
  have hpoll : t.Uncalled (around.transcribed.watch.poll req.guard t).2 := by
    obtain ⟨sights, hpolled, hseen⟩ := polled_transcribed around.watch req.guard t
    exact ⟨sights, hseen, hpolled.calls⟩
  have hcall : ∀ (call : Call), (t.seen ++ [Sight.called call]).filterMap Sight.call?
      = t.calls ++ [call] := by
    intro call
    rw [List.filterMap_append]
    rfl
  cases p with
  | entering => exact (hquiet hpoll).trans (List.append_nil _).symm
  | reading => exact hcall _
  | ready attempt => exact (hquiet hpoll).trans (List.append_nil _).symm
  | writing attempt => exact hcall _
  | waiting current made left =>
    have hwait := uncalled_wait around.watch req.guard rules.policy.backoff t
    have hmoments : (req.moments rules around (.waiting current made left) t.inner).filterMap
        Moment.call? = [] :=
      List.filterMap_eq_nil_iff.2 fun m hm => Watch.call?_of_mem_pollsOfWait hm
    rw [hmoments, List.append_nil]
    exact hquiet hwait
  | rechecking current made left => exact (hquiet hpoll).trans (List.append_nil _).symm
  | finished result => exact absurd hp (by simp [Phase.result?])

/-- The calls of a course are those that the store is told of. -/
theorem calls_course (p : Phase) (t : Transcribed σ) :
    (req.runFrom rules around.transcribed p t).2.calls
      = t.calls ++ (req.course rules around p t.inner).filterMap Moment.call? := by
  induction p, t using run_induction req rules around.transcribed with
  | finished result t =>
    rw [runFrom_finished, course_finished]
    exact (List.append_nil _).symm
  | next p t hp ih =>
    obtain ⟨hphase, hinner⟩ := req.next_projects rules (projects_transcribed around) p t
    rw [runFrom_next around.transcribed hp, ih, calls_next hp, course_next hp, hphase, hinner,
      List.filterMap_append, List.append_assoc]

end Request

-- ============================================================================
-- Calls and writes along a course
-- ============================================================================

namespace Phase

/-- Whether the next observation is a call of the store. -/
def calls : Phase → Bool
  | reading | writing _ => true
  | entering | ready _ | waiting .. | rechecking .. | finished _ => false

/-- Whether the next observation is a poll. -/
def polls : Phase → Bool
  | entering | ready _ | rechecking .. => true
  | reading | writing _ | waiting .. | finished _ => false

/-- The writes that were issued before a phase of a request that has not ended. -/
def made : Phase → Nat
  | ready a | writing a => a.made
  | waiting _ made _ | rechecking _ made _ => made
  | entering | reading | finished _ => 0

end Phase

namespace Request

variable {req : Request} {rules : Rules} {around : Surroundings σ} {s : σ}

theorem calls_prepare (base : Record) (made left : Nat) :
    (req.prepare rules base made left).calls = false := by
  unfold prepare
  split
  · rfl
  · split <;> rfl

theorem calls_afterRead (answer : Except StoreError (Option Record)) :
    (req.afterRead rules answer).calls = false := by
  match answer with
  | .error _ => rfl
  | .ok none => rfl
  | .ok (some base) => exact calls_prepare base 0 _

theorem calls_afterWrite (a : Attempt) (answer : Except StoreError WriteOutcome) :
    (req.afterWrite rules a answer).calls = false := by
  match answer with
  | .error _ => rfl
  | .ok (.committed _) => rfl
  | .ok .notFound => rfl
  | .ok (.versionMismatch current) =>
    rw [afterWrite, afterMismatch]
    split
    · rfl
    · split
      · rfl
      · split
        · exact calls_prepare current _ _
        · rfl

theorem calls_afterWait (current : Record) (made left : Nat)
    (outcome : Except ClockError (Option CancelReason)) :
    (req.afterWait rules current made left outcome).calls = false := by
  match outcome with
  | .error e => rfl
  | .ok none => exact calls_prepare current made left
  | .ok (some reason) => rfl

theorem calls_afterRecheck (current : Record) (made left : Nat)
    (verdict : Option CancelReason) :
    (req.afterRecheck rules current made left verdict).calls = false := by
  cases verdict with
  | none => exact calls_prepare current made left
  | some reason => rfl

theorem call?_of_mem_moments {p : Phase} (hp : p.calls = false) {m : Moment σ}
    (hm : m ∈ req.moments rules around p s) : m.call? = none := by
  cases p with
  | reading | writing => contradiction
  | entering | ready | rechecking =>
    obtain rfl := List.mem_singleton.1 hm
    rfl
  | waiting => exact Watch.call?_of_mem_pollsOfWait hm
  | finished => simp [moments] at hm

theorem made_prepare {base : Record} {made left : Nat}
    (hresult : (req.prepare rules base made left).result? = none) :
    (req.prepare rules base made left).made = made := by
  unfold prepare at hresult ⊢
  split
  next hstale =>
    rw [hstale] at hresult
    contradiction
  next hstale =>
    rw [hstale] at hresult
    dsimp only at hresult
    split
    next reason hcandidate =>
      rw [hcandidate] at hresult
      contradiction
    next => rfl

theorem made_afterMismatch {a : Attempt} {current : Record}
    (hresult : (req.afterMismatch rules a current).result? = none) :
    (req.afterMismatch rules a current).made = a.made + 1 := by
  unfold afterMismatch at hresult ⊢
  split at hresult
  next => contradiction
  next hretryable =>
    rw [if_neg hretryable]
    split at hresult
    next => contradiction
    next left hleft =>
      split at hresult
      next hzero =>
        rw [if_pos hzero]
        exact made_prepare hresult
      next hzero => rw [if_neg hzero]; rfl

theorem made_afterEntry {verdict : Option CancelReason}
    (hresult : (req.afterEntry verdict).result? = none) : (req.afterEntry verdict).made = 0 := by
  cases verdict with
  | none => rfl
  | some reason => contradiction

theorem made_afterRead {answer : Except StoreError (Option Record)}
    (hresult : (req.afterRead rules answer).result? = none) :
    (req.afterRead rules answer).made = 0 := by
  match answer with
  | .error _ => contradiction
  | .ok none => contradiction
  | .ok (some base) => exact made_prepare hresult

theorem made_afterReady {a : Attempt} {verdict : Option CancelReason}
    (hresult : (req.afterReady a verdict).result? = none) :
    (req.afterReady a verdict).made = a.made := by
  cases verdict with
  | none => rfl
  | some reason => contradiction

theorem made_afterWrite {a : Attempt} {answer : Except StoreError WriteOutcome}
    (hresult : (req.afterWrite rules a answer).result? = none) :
    (req.afterWrite rules a answer).made = a.made + 1 := by
  match answer with
  | .error _ | .ok (.committed _) | .ok .notFound => contradiction
  | .ok (.versionMismatch current) => exact made_afterMismatch hresult

theorem made_afterWait {current : Record} {made left : Nat}
    {outcome : Except ClockError (Option CancelReason)}
    (hresult : (req.afterWait rules current made left outcome).result? = none) :
    (req.afterWait rules current made left outcome).made = made := by
  match outcome with
  | .error e => contradiction
  | .ok none => exact made_prepare hresult
  | .ok (some reason) => rfl

theorem made_afterRecheck {current : Record} {made left : Nat} {verdict : Option CancelReason}
    (hresult : (req.afterRecheck rules current made left verdict).result? = none) :
    (req.afterRecheck rules current made left verdict).made = made := by
  cases verdict with
  | none => exact made_prepare hresult
  | some reason => contradiction

/-- A request keeps count of its writes. -/
theorem made_next {p : Phase} (hresult : (req.next rules around p s).1.result? = none) :
    (req.next rules around p s).1.made
      = p.made + (req.moments rules around p s).countP Moment.isWrite := by
  cases p with
  | entering => exact made_afterEntry hresult
  | reading => exact made_afterRead hresult
  | ready a => exact made_afterReady hresult
  | writing a => exact made_afterWrite hresult
  | waiting current made left =>
    have hcount : (req.moments rules around (.waiting current made left) s).countP Moment.isWrite
        = 0 := Moment.countP_isWrite_of_quiet fun m => Watch.call?_of_mem_pollsOfWait
    rw [hcount]
    exact made_afterWait hresult
  | rechecking current made left => exact made_afterRecheck hresult
  | finished => contradiction

/-- A request of which a write took place ends well. -/
theorem ok_of_isCommit (p : Phase) (s : σ)
    (hseen : ∃ m ∈ req.course rules around p s, m.isCommit = true) :
    ∃ done, (req.runFrom rules around p s).1 = .ok done := by
  induction p, s using run_induction req rules around with
  | finished result s => simp [course_finished] at hseen
  | next p s hresult ih =>
    obtain ⟨m, hm, hcommit⟩ := hseen
    rw [runFrom_next around hresult]
    rw [course_next hresult, List.mem_append] at hm
    rcases hm with hm | hm
    · cases p with
      | finished => contradiction
      | entering | reading | ready | rechecking =>
        obtain rfl := List.mem_singleton.1 hm
        contradiction
      | waiting =>
        have hcall := Watch.call?_of_mem_pollsOfWait hm
        obtain ⟨state, act⟩ := m
        cases act <;> contradiction
      | writing a =>
        obtain rfl := List.mem_singleton.1 hm
        match hanswer : (around.store.write req.id a.expected a.candidate s).1 with
        | .error _ | .ok .notFound | .ok (.versionMismatch _) =>
          rw [hanswer] at hcommit
          contradiction
        | .ok (.committed r) =>
          have hnext : (req.next rules around (.writing a) s).1
              = .finished (.ok ⟨r, a.made + 1⟩) := by
            show req.afterWrite rules a (around.store.write req.id a.expected a.candidate s).1 = _
            rw [hanswer]
            rfl
          rw [hnext, runFrom_finished]
          exact ⟨_, rfl⟩
    · exact ih ⟨m, hm, hcommit⟩

end Request

end VersionedStore.Update
