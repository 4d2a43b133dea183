/-
  VersionedStore.Proofs.Update.Cancellation

  Giving up is safe.

  A signal that was triggered stays triggered and the clock does not go back
  (`Surroundings.Steady`); else the surroundings do as they like, and a guard may
  become over at any moment, in the middle of a wait or of a call too.

  The call of a request comes right after a poll that saw nothing, so a guard that
  becomes over leaves room for one more call, the one whose poll has passed.
  Whatever follows is quiet: from a state in which the guard is over, and before
  any phase but the two that call, a request makes no call (`call?_of_over`).
-/
import Mathlib.Data.List.Chain
import VersionedStore.Proofs.Update.Course
import VersionedStore.Store.Scripted

namespace VersionedStore
namespace Update

variable {σ : Type}

-- ============================================================================
-- Signals and clocks that do not go back
-- ============================================================================

/-- What is so of the signals and the clock in a state. -/
structure Facts (σ : Type) where
  triggered : σ → Signal → Bool
  clock : σ → Time

/-- Nothing has gone back from one state to another. -/
structure Facts.Onward (facts : Facts σ) (s s' : σ) : Prop where
  triggered : ∀ signal, facts.triggered s signal = true → facts.triggered s' signal = true
  clock : facts.clock s ≤ facts.clock s'

/-- The guard's signal was triggered, or its deadline has passed. -/
def Guard.Over (g : Guard) (facts : Facts σ) (s : σ) : Prop :=
  (∃ signal ∈ g.signal, facts.triggered s signal = true) ∨ ∃ d ∈ g.deadline, d ≤ facts.clock s

/-- Surroundings in which nothing goes back, and in which a look tells what was so at some
    moment while it was taken. -/
structure Surroundings.Steady (around : Surroundings σ) (facts : Facts σ) : Prop where
  look_true : ∀ signal s, facts.triggered s signal = true →
    (around.watch.isTriggered signal s).1 = true
  of_look_true : ∀ signal s, (around.watch.isTriggered signal s).1 = true →
    facts.triggered (around.watch.isTriggered signal s).2 signal = true
  le_now : ∀ s, facts.clock s ≤ (around.watch.now s).1
  now_le : ∀ s, (around.watch.now s).1 ≤ facts.clock (around.watch.now s).2
  isTriggered : ∀ signal s, facts.Onward s (around.watch.isTriggered signal s).2
  now : ∀ s, facts.Onward s (around.watch.now s).2
  sleep : ∀ length s, facts.Onward s (around.watch.sleep length s).2
  read : ∀ id s, facts.Onward s (around.store.read id s).2
  write : ∀ id expected fields s, facts.Onward s (around.store.write id expected fields s).2

theorem Facts.Onward.refl (facts : Facts σ) (s : σ) : facts.Onward s s :=
  ⟨fun _ h => h, Nat.le_refl _⟩

theorem Facts.Onward.trans {facts : Facts σ} {s s' s'' : σ} (h : facts.Onward s s')
    (h' : facts.Onward s' s'') : facts.Onward s s'' :=
  ⟨fun signal hsignal => h'.triggered signal (h.triggered signal hsignal),
    Nat.le_trans h.clock h'.clock⟩

variable {g : Guard} {facts : Facts σ} {s s' : σ}

/-- A guard that is over stays over. -/
theorem Guard.Over.mono (h : g.Over facts s) (hon : facts.Onward s s') : g.Over facts s' := by
  rcases h with ⟨signal, hsignal, htriggered⟩ | ⟨d, hd, hle⟩
  · exact .inl ⟨signal, hsignal, hon.triggered signal htriggered⟩
  · exact .inr ⟨d, hd, Nat.le_trans hle hon.clock⟩

theorem Guard.verdict_of_triggered (g : Guard) (now : Time) :
    ∃ reason, g.verdict true now = some reason :=
  ⟨.signal, g.verdict_triggered now⟩

theorem Guard.verdict_of_late {triggered : Bool} {now d : Time} (hd : d ∈ g.deadline)
    (hle : d ≤ now) : ∃ reason, g.verdict triggered now = some reason := by
  rw [← Option.isSome_iff_exists, ← Option.ne_none_iff_isSome]
  intro hnone
  have hlt := (verdict_eq_none_iff.1 hnone).2 d hd
  exact Nat.not_lt.2 hle hlt

namespace Surroundings.Steady

variable {around : Surroundings σ} (h : around.Steady facts)

include h

theorem keeps_over : around.watch.Keeps (g.Over facts) :=
  ⟨fun signal _ hover => hover.mono (h.isTriggered signal _), fun _ hover => hover.mono (h.now _),
    fun length _ hover => hover.mono (h.sleep length _)⟩

/-- A poll that begins when the guard is over sees it. -/
theorem poll_of_over (hover : g.Over facts s) :
    ∃ reason, (around.watch.poll g s).1 = some reason := by
  rw [Watch.poll_eq]
  rcases hover with ⟨signal, hsignal, htriggered⟩ | ⟨d, hd, hle⟩
  · have hlook : (around.watch.look g.signal s).1 = true := by
      rw [Option.mem_def.1 hsignal]
      exact h.look_true signal s htriggered
    obtain ⟨reason, hreason⟩ :=
      g.verdict_of_triggered (around.watch.now (around.watch.look g.signal s).2).1
    refine ⟨reason, ?_⟩
    rw [← hlook] at hreason
    exact hreason
  · have hon : facts.Onward s (around.watch.look g.signal s).2 := by
      cases g.signal with
      | none => exact .refl facts s
      | some signal => exact h.isTriggered signal s
    have hnow := Nat.le_trans hon.clock (h.le_now (around.watch.look g.signal s).2)
    exact Guard.verdict_of_late hd (Nat.le_trans hle hnow)

/-- What a poll has seen is so when it ends. -/
theorem over_of_poll {reason : CancelReason} (hpoll : (around.watch.poll g s).1 = some reason) :
    g.Over facts (around.watch.poll g s).2 := by
  rw [Watch.poll_eq] at hpoll ⊢
  let looked := around.watch.look g.signal s
  let now := around.watch.now looked.2
  change g.verdict looked.1 now.1 = some reason at hpoll
  show g.Over facts now.2
  by_cases hlook : looked.1 = true
  · cases hsignal : g.signal with
    | none =>
      have hfalse : looked.1 = false := by
        show (around.watch.look g.signal s).1 = false
        rw [hsignal]
        rfl
      rw [hfalse] at hlook
      contradiction
    | some signal =>
      have hstate : facts.triggered looked.2 signal = true := by
        have htrue : (around.watch.look g.signal s).1 = true := hlook
        show facts.triggered (around.watch.look g.signal s).2 signal = true
        rw [hsignal] at htrue ⊢
        exact h.of_look_true signal s htrue
      exact .inl ⟨signal, hsignal, (h.now looked.2).triggered signal hstate⟩
  · have hlate : ∃ d ∈ g.deadline, d ≤ now.1 := by
      by_contra hno
      have hnone : g.verdict looked.1 now.1 = none := by
        refine Guard.verdict_eq_none_iff.2 ⟨Bool.eq_false_iff.2 hlook, fun d hd => ?_⟩
        exact Nat.lt_of_not_le fun hle => hno ⟨d, hd, hle⟩
      rw [hnone] at hpoll
      contradiction
    obtain ⟨d, hd, hle⟩ := hlate
    exact .inr ⟨d, hd, Nat.le_trans hle (h.now_le looked.2)⟩

/-- A wait is cut short exactly if one of its polls sees that the guard is over, and in that
    case it is over when the wait ends. -/
theorem waitUntil_cut {finish : Time} {turns : Nat} :
    (∀ reason, (around.watch.waitUntil g finish turns s).1 = some reason →
      g.Over facts (around.watch.waitUntil g finish turns s).2) ∧
    ∀ m ∈ around.watch.polls g finish turns s, m.reason? ≠ none ∨ g.Over facts m.state →
      ∃ reason, (around.watch.waitUntil g finish turns s).1 = some reason := by
  induction turns generalizing s with
  | zero => exact ⟨fun reason hcut => absurd hcut (Option.some_ne_none reason).symm, by
      simp [Watch.polls]⟩
  | succ turns ih =>
    rw [Watch.waitUntil_step, Watch.polls]
    cases hpoll : (around.watch.poll g s).1 with
    | some reason =>
      exact ⟨fun _ _ => (h.over_of_poll hpoll).mono (h.now _), fun _ _ _ => ⟨reason, rfl⟩⟩
    | none =>
      have hnot : ¬g.Over facts s := by
        intro hover
        obtain ⟨reason, hreason⟩ := h.poll_of_over hover
        rw [hpoll] at hreason
        contradiction
      dsimp only
      split
      next =>
        refine ⟨fun reason hcut => by simp at hcut, fun m hm hseen => ?_⟩
        rw [List.mem_singleton] at hm
        subst hm
        exact absurd hseen (by simp [Moment.reason?, hnot])
      next =>
        refine ⟨ih.1, fun m hm hseen => ?_⟩
        rcases List.mem_cons.1 hm with rfl | hm
        · exact absurd hseen (by simp [Moment.reason?, hnot])
        · exact ih.2 m hm hseen

theorem wait_cut {d : Duration} :
    (∀ reason, (around.watch.wait g d s).1 = .ok (some reason) →
      g.Over facts (around.watch.wait g d s).2) ∧
    ∀ m ∈ around.watch.pollsOfWait g d s, m.reason? ≠ none ∨ g.Over facts m.state →
      ∃ reason, (around.watch.wait g d s).1 = .ok (some reason) := by
  cases hshows : around.watch.shows ((around.watch.now s).1 + d.nanoseconds) with
  | true =>
    rw [Watch.wait_of_shows hshows, Watch.pollsOfWait_of_shows hshows]
    refine ⟨fun reason hreason => ?_, fun m hm hseen => ?_⟩
    · exact h.waitUntil_cut.1 reason (Except.ok.inj hreason)
    · obtain ⟨reason, hreason⟩ := h.waitUntil_cut.2 m hm hseen
      exact ⟨reason, congrArg Except.ok hreason⟩
  | false =>
    rw [Watch.wait_of_not_shows hshows, Watch.pollsOfWait_of_not_shows hshows]
    exact ⟨fun _ hreason => by contradiction, fun m hm => by contradiction⟩

end Surroundings.Steady

-- ============================================================================
-- Once a guard is over
-- ============================================================================

namespace Request

variable {req : Request} {rules : Rules} {around : Surroundings σ}

/-- If the guard is over, the poll that comes next sees it. -/
theorem exists_reason (rules : Rules) (h : around.Steady facts)
    (hover : req.guard.Over facts s) {p : Phase} (hpolls : p.polls = true) :
    ∃ m ∈ req.moments rules around p s, m.reason? ≠ none := by
  have hpoll : (around.watch.poll req.guard s).1 ≠ none :=
    Option.ne_none_iff_exists'.2 (h.poll_of_over hover)
  cases p with
  | reading | writing | waiting | finished => contradiction
  | entering | ready | rechecking => exact ⟨_, List.mem_singleton_self _, hpoll⟩

/-- A poll that sees that the guard is over leads to the end, or to the poll after a wait that
    was cut short. -/
theorem next_of_reason (h : around.Steady facts) {p : Phase} {m : Moment σ}
    (hm : m ∈ req.moments rules around p s) (hreason : m.reason? ≠ none) :
    (∃ reason, (req.next rules around p s).1
        = .finished (.error (.cancelled req.id p.made reason))) ∨
      ∃ current left, (req.next rules around p s).1 = .rechecking current p.made left := by
  have hpoll : ∀ {f : Option CancelReason → Phase},
      (∀ reason, f (some reason) = .finished (.error (.cancelled req.id p.made reason))) →
      m ∈ [⟨s, .poll (around.watch.poll req.guard s).1⟩] →
      ∃ reason, f (around.watch.poll req.guard s).1
        = .finished (.error (.cancelled req.id p.made reason)) := by
    intro f hf hm
    obtain rfl := List.mem_singleton.1 hm
    obtain ⟨reason, hverdict⟩ := Option.ne_none_iff_exists'.1 hreason
    have hseen : (around.watch.poll req.guard s).1 = some reason := hverdict
    rw [hseen]
    exact ⟨reason, hf reason⟩
  cases p with
  | finished => simp [moments] at hm
  | reading | writing =>
    obtain rfl := List.mem_singleton.1 hm
    exact absurd rfl hreason
  | waiting current made left =>
    obtain ⟨reason, hcut⟩ := h.wait_cut.2 m hm (.inl hreason)
    refine .inr ⟨current, left, ?_⟩
    show req.afterWait rules current made left
      (around.watch.wait req.guard rules.policy.backoff s).1 = _
    rw [hcut]
    rfl
  | entering => exact .inl (hpoll (f := req.afterEntry) (fun _ => rfl) hm)
  | ready a => exact .inl (hpoll (f := req.afterReady a) (fun _ => rfl) hm)
  | rechecking current made left =>
    exact .inl (hpoll (f := req.afterRecheck rules current made left) (fun _ => rfl) hm)

/-- What a request observes does not make its guard less over. -/
theorem over_next (h : around.Steady facts) (p : Phase) (hover : req.guard.Over facts s) :
    req.guard.Over facts (req.next rules around p s).2 := by
  cases p with
  | entering | ready | rechecking => exact h.keeps_over.poll req.guard s hover
  | reading => exact hover.mono (h.read req.id s)
  | writing a => exact hover.mono (h.write req.id a.expected a.candidate s)
  | waiting => exact h.keeps_over.wait req.guard rules.policy.backoff s hover
  | finished => exact hover

/-- Once the guard is over, a request that is not about to call the store makes no call. -/
theorem call?_of_over (h : around.Steady facts) (hover : req.guard.Over facts s) {p : Phase}
    (hp : p.calls = false) {m : Moment σ} (hm : m ∈ req.course rules around p s) :
    m.call? = none := by
  induction p, s using run_induction req rules around with
  | finished result s => simp [course_finished] at hm
  | next p s hresult ih =>
    rw [course_next hresult, List.mem_append] at hm
    rcases hm with hm | hm
    · exact call?_of_mem_moments hp hm
    · have hpoll : p.polls = true → (req.next rules around p s).1.calls = false := by
        intro hpolls
        obtain ⟨n, hn, hreason⟩ := exists_reason rules h hover hpolls
        rcases next_of_reason h hn hreason with ⟨reason, hnext⟩ | ⟨current, left, hnext⟩
        · rw [hnext]
          rfl
        · rw [hnext]
          rfl
      have hcalls : (req.next rules around p s).1.calls = false := by
        cases p with
        | reading | writing | finished => contradiction
        | entering | ready | rechecking => exact hpoll rfl
        | waiting current made left => exact calls_afterWait current made left _
      exact ih (over_next h p hover) hcalls hm

/-- If the guard is over at a moment, or the moment is a poll that saw so, then it is over when
    the observation ends, and what follows is no call. -/
theorem over_of_moment (h : around.Steady facts) {p : Phase} {m : Moment σ}
    (hm : m ∈ req.moments rules around p s)
    (hseen : m.reason? ≠ none ∨ req.guard.Over facts m.state) :
    req.guard.Over facts (req.next rules around p s).2 ∧
      (req.next rules around p s).1.calls = false := by
  have hpoll : ∀ {f : Option CancelReason → Phase}, (∀ reason, (f (some reason)).calls = false) →
      m = ⟨s, .poll (around.watch.poll req.guard s).1⟩ →
      req.guard.Over facts (around.watch.poll req.guard s).2 ∧
        (f (around.watch.poll req.guard s).1).calls = false := by
    rintro f hf rfl
    have hsome : ∃ reason, (around.watch.poll req.guard s).1 = some reason := by
      rcases hseen with hreason | hover
      · exact Option.ne_none_iff_exists'.1 hreason
      · exact h.poll_of_over hover
    obtain ⟨reason, hreason⟩ := hsome
    rw [hreason]
    exact ⟨h.over_of_poll hreason, hf reason⟩
  have hover : ∀ {call : Call}, m = ⟨s, .call call⟩ → req.guard.Over facts s := by
    rintro call rfl
    exact hseen.resolve_left fun hreason => hreason rfl
  cases p with
  | entering => exact hpoll (f := req.afterEntry) (fun _ => rfl) (List.mem_singleton.1 hm)
  | ready a => exact hpoll (f := req.afterReady a) (fun _ => rfl) (List.mem_singleton.1 hm)
  | rechecking current made left =>
    exact hpoll (f := req.afterRecheck rules current made left) (fun _ => rfl)
      (List.mem_singleton.1 hm)
  | reading =>
    exact ⟨over_next h _ (hover (List.mem_singleton.1 hm)), calls_afterRead _⟩
  | writing a =>
    exact ⟨over_next h _ (hover (List.mem_singleton.1 hm)), calls_afterWrite a _⟩
  | waiting current made left =>
    obtain ⟨reason, hcut⟩ := h.wait_cut.2 m hm hseen
    exact ⟨h.wait_cut.1 reason hcut, calls_afterWait current made left _⟩
  | finished => simp [moments] at hm

-- ============================================================================
-- What a course keeps
-- ============================================================================

/-- If a moment is a call, then the moment before it is a poll that saw nothing, and nothing was
    so when that poll began. -/
def Vetted (req : Request) (facts : Facts σ) (q m : Moment σ) : Prop :=
  m.call? ≠ none → q.act = .poll none ∧ ¬req.guard.Over facts q.state

theorem isChain_quiet {l rest : List (Moment σ)} (hl : ∀ m ∈ l, m.call? = none)
    (hrest : ∀ q, (q :: rest).IsChain (req.Vetted facts)) (q : Moment σ) :
    (q :: (l ++ rest)).IsChain (req.Vetted facts) := by
  induction l generalizing q with
  | nil => exact hrest q
  | cons m l ih =>
    have hm : m.call? = none := hl m List.mem_cons_self
    refine List.isChain_cons_cons.2 ⟨fun hcall => absurd hm hcall, ?_⟩
    exact ih (fun n hn => hl n (List.mem_cons_of_mem _ hn)) m

theorem isChain_course (req : Request) (rules : Rules) (h : around.Steady facts) (p : Phase)
    (s : σ) (q : Moment σ)
    (hq : p.calls = true → q.act = .poll none ∧ ¬req.guard.Over facts q.state) :
    (q :: req.course rules around p s).IsChain (req.Vetted facts) := by
  induction p, s using run_induction req rules around generalizing q with
  | finished result s =>
    rw [course_finished]
    exact .singleton q
  | next p s hresult ih =>
    rw [course_next hresult]
    have hquiet : ∀ {P : Prop}, (req.next rules around p s).1.calls = false →
        (req.next rules around p s).1.calls = true → P := by
      intro P hno hyes
      rw [hno] at hyes
      contradiction
    have hpoll : ((req.next rules around p s).1.calls = true →
          (around.watch.poll req.guard s).1 = none) →
        (req.next rules around p s).1.calls = true →
          Act.poll (around.watch.poll req.guard s).1 = .poll none ∧ ¬req.guard.Over facts s := by
      intro hnone hcalls
      refine ⟨congrArg Act.poll (hnone hcalls), fun hover => ?_⟩
      obtain ⟨reason, hreason⟩ := h.poll_of_over hover
      rw [hnone hcalls] at hreason
      contradiction
    cases p with
    | finished => contradiction
    | reading =>
      exact List.isChain_cons_cons.2 ⟨fun _ => hq rfl, ih _ (hquiet (calls_afterRead _))⟩
    | writing a =>
      exact List.isChain_cons_cons.2 ⟨fun _ => hq rfl, ih _ (hquiet (calls_afterWrite a _))⟩
    | entering =>
      refine List.isChain_cons_cons.2 ⟨fun hcall => absurd rfl hcall, ih _ (hpoll ?_)⟩
      show (req.afterEntry (around.watch.poll req.guard s).1).calls = true → _
      cases (around.watch.poll req.guard s).1 with
      | none => exact fun _ => rfl
      | some reason => exact fun hcalls => absurd hcalls Bool.false_ne_true
    | ready a =>
      refine List.isChain_cons_cons.2 ⟨fun hcall => absurd rfl hcall, ih _ (hpoll ?_)⟩
      show (req.afterReady a (around.watch.poll req.guard s).1).calls = true → _
      cases (around.watch.poll req.guard s).1 with
      | none => exact fun _ => rfl
      | some reason => exact fun hcalls => absurd hcalls Bool.false_ne_true
    | rechecking current made left =>
      exact List.isChain_cons_cons.2 ⟨fun hcall => absurd rfl hcall,
        ih _ (hquiet (calls_afterRecheck current made left _))⟩
    | waiting current made left =>
      exact isChain_quiet (fun m => Watch.call?_of_mem_pollsOfWait)
        (fun q => ih q (hquiet (calls_afterWait current made left _))) q

/-- After a moment at which the guard is over, or a poll that saw so, there is no call. -/
theorem pairwise_course (req : Request) (rules : Rules) (h : around.Steady facts) (p : Phase)
    (s : σ) :
    (req.course rules around p s).Pairwise fun m n =>
      m.reason? ≠ none ∨ req.guard.Over facts m.state → n.call? = none := by
  induction p, s using run_induction req rules around with
  | finished result s =>
    rw [course_finished]
    exact .nil
  | next p s hresult ih =>
    rw [course_next hresult, List.pairwise_append]
    refine ⟨?_, ih, fun m hm n hn hseen => ?_⟩
    · cases hcalls : p.calls with
      | false =>
        exact List.pairwise_of_forall_mem_list fun m _ n hn _ => call?_of_mem_moments hcalls hn
      | true =>
        cases p with
        | reading | writing => exact List.pairwise_singleton _ _
        | _ => contradiction
    · obtain ⟨hover, hcalls⟩ := over_of_moment h hm hseen
      exact call?_of_over h hover hcalls hn

-- ============================================================================
-- How a request ends
-- ============================================================================

/-- A request that polls while its guard is over is cancelled, after the writes that it has
    issued. -/
theorem cancelled_of_reason (h : around.Steady facts) (p : Phase) (s : σ)
    (hseen : ∃ m ∈ req.course rules around p s, m.reason? ≠ none) :
    ∃ reason, (req.runFrom rules around p s).1 = .error (.cancelled req.id
      (p.made + (req.course rules around p s).countP Moment.isWrite) reason) := by
  induction p, s using run_induction req rules around with
  | finished result s => simp [course_finished] at hseen
  | next p s hresult ih =>
    obtain ⟨m, hm, hreason⟩ := hseen
    rw [runFrom_next around hresult, course_next hresult, List.countP_append]
    rw [course_next hresult, List.mem_append] at hm
    -- either the request is over now, or a later poll sees it as well
    have hcases : (∃ reason, (req.next rules around p s).1
          = .finished (.error (.cancelled req.id p.made reason)) ∧ p.calls = false) ∨
        ∃ n ∈ req.course rules around (req.next rules around p s).1
          (req.next rules around p s).2, n.reason? ≠ none := by
      rcases hm with hm | hm
      · have hcalls : p.calls = false := by
          cases p with
          | reading | writing =>
            obtain rfl := List.mem_singleton.1 hm
            exact absurd rfl hreason
          | _ => rfl
        rcases next_of_reason h hm hreason with ⟨reason, hnext⟩ | ⟨current, left, hnext⟩
        · exact .inl ⟨reason, hnext, hcalls⟩
        · have hover := (over_of_moment h hm (.inl hreason)).1
          rw [hnext]
          obtain ⟨n, hn, hlater⟩ := exists_reason rules h hover
            (p := .rechecking current p.made left) rfl
          refine .inr ⟨n, ?_, hlater⟩
          rw [course_next rfl]
          exact List.mem_append_left _ hn
      · exact .inr ⟨m, hm, hreason⟩
    rcases hcases with ⟨reason, hnext, hcalls⟩ | hlater
    · have hcount : (req.moments rules around p s).countP Moment.isWrite = 0 :=
        Moment.countP_isWrite_of_quiet fun m => call?_of_mem_moments hcalls
      rw [hnext, runFrom_finished, course_finished, hcount]
      exact ⟨reason, rfl⟩
    · have hunfinished : (req.next rules around p s).1.result? = none := by
        obtain ⟨n, hn, -⟩ := hlater
        cases hnext : (req.next rules around p s).1 with
        | finished result => simp [hnext, course_finished] at hn
        | _ => rfl
      obtain ⟨reason, hrun⟩ := ih hlater
      refine ⟨reason, ?_⟩
      rw [hrun, made_next hunfinished, Nat.add_assoc]

/-- A wait that is cut short is the end of the request, without another call. -/
theorem cancelled_of_cut (h : around.Steady facts) {current : Record} {made left : Nat}
    {reason : CancelReason}
    (hcut : (around.watch.wait req.guard rules.policy.backoff s).1 = .ok (some reason)) :
    (∀ m ∈ req.course rules around (.waiting current made left) s, m.call? = none) ∧
      ∃ reason, (req.runFrom rules around (.waiting current made left) s).1
        = .error (.cancelled req.id made reason) := by
  have hnext : (req.next rules around (.waiting current made left) s).1
      = .rechecking current made left := by
    show req.afterWait rules current made left
      (around.watch.wait req.guard rules.policy.backoff s).1 = _
    rw [hcut]
    rfl
  have hover : req.guard.Over facts (req.next rules around (.waiting current made left) s).2 :=
    h.wait_cut.1 reason hcut
  have hquiet : ∀ m ∈ req.course rules around (.waiting current made left) s,
      m.call? = none := by
    intro m hm
    rw [course_next rfl, hnext, List.mem_append] at hm
    rcases hm with hm | hm
    · exact Watch.call?_of_mem_pollsOfWait hm
    · exact call?_of_over h hover rfl hm
  refine ⟨hquiet, ?_⟩
  obtain ⟨m, hm, hreason⟩ :=
    exists_reason rules h hover (p := .rechecking current made left) rfl
  have hmem : m ∈ req.course rules around (.waiting current made left) s := by
    rw [course_next rfl, hnext, course_next rfl]
    exact List.mem_append_right _ (List.mem_append_left _ hm)
  have hcancelled := cancelled_of_reason h (.waiting current made left) s ⟨m, hmem, hreason⟩
  rw [Moment.countP_isWrite_of_quiet hquiet] at hcancelled
  exact hcancelled

/-- What a request does about its guard, in its course and at its end. -/
structure Heeds (req : Request) (facts : Facts σ) (course : List (Moment σ))
    (result : Result) : Prop where
  /-- A call comes right after a poll that saw nothing, when indeed nothing was so. -/
  polled : ∀ before m after, course = before ++ m :: after → m.call? ≠ none →
    ∃ earlier q, before = earlier ++ [q] ∧ q.act = .poll none ∧ ¬req.guard.Over facts q.state
  /-- After a poll that saw that the guard is over, in a wait or not, there is no call. -/
  stops : ∀ before m after, course = before ++ m :: after → m.reason? ≠ none →
    ∀ n ∈ after, n.call? = none
  /-- After such a poll the request ends as cancelled, with the number of its writes, none of
      which took place. -/
  ends : (∃ m ∈ course, m.reason? ≠ none) →
    (∃ reason,
      result = .error (.cancelled req.id (course.countP Moment.isWrite) reason)) ∧
      ∀ m ∈ course, m.isCommit = false
  /-- From a moment on at which the guard is over, one call is made at most, at that moment. -/
  late : ∀ before m after, course = before ++ m :: after → req.guard.Over facts m.state →
    (m :: after).countP Moment.isWrite ≤ 1 ∧ ∀ n ∈ after, n.call? = none

theorem heeds_run (req : Request) (rules : Rules) (h : around.Steady facts) (s : σ) :
    req.Heeds facts (req.course rules around .entering s)
      (req.runFrom rules around .entering s).1 := by
  have hpairwise := pairwise_course req rules h .entering s
  have hafter : ∀ before m after, req.course rules around .entering s = before ++ m :: after →
      m.reason? ≠ none ∨ req.guard.Over facts m.state → ∀ n ∈ after, n.call? = none := by
    intro before m after hcourse hseen n hn
    rw [hcourse, List.pairwise_append, List.pairwise_cons] at hpairwise
    exact hpairwise.2.1.1 n hn hseen
  refine ⟨fun before m after hcourse hcall => ?_, fun before m after hcourse hreason => ?_,
    fun hseen => ?_, fun before m after hcourse hover => ?_⟩
  · have hchain := isChain_course req rules h .entering s
      ⟨s, .poll none⟩ (fun hno => absurd hno Bool.false_ne_true)
    rcases List.eq_nil_or_concat before with rfl | ⟨earlier, q, rfl⟩
    · -- a request begins with a poll
      rw [course_next rfl] at hcourse
      obtain ⟨rfl, -⟩ := List.cons.inj hcourse
      exact absurd rfl hcall
    · rw [List.concat_eq_append, List.append_assoc] at hcourse
      rw [hcourse, ← List.cons_append, List.singleton_append] at hchain
      have hvetted := List.isChain_append_cons_cons.1 hchain
      exact ⟨earlier, q, List.concat_eq_append, hvetted.2.1 hcall⟩
  · exact hafter before m after hcourse (.inl hreason)
  · obtain ⟨reason, hresult⟩ := cancelled_of_reason h .entering s hseen
    rw [Phase.made, Nat.zero_add] at hresult
    refine ⟨⟨reason, hresult⟩, fun m hm => ?_⟩
    rw [Bool.eq_false_iff]
    intro hcommit
    obtain ⟨done, hdone⟩ := ok_of_isCommit .entering s ⟨m, hm, hcommit⟩
    rw [hdone] at hresult
    contradiction
  · have hquiet := hafter before m after hcourse (.inr hover)
    refine ⟨?_, hquiet⟩
    rw [List.countP_cons, Moment.countP_isWrite_of_quiet hquiet]
    split <;> omega

end Request

-- ============================================================================
-- A steady store with a script
-- ============================================================================

end Update

open Update

/-- The signals and the clock of a world. -/
def World.facts : Facts World := ⟨fun w signal => decide (signal ∈ w.triggered), (·.clock)⟩

namespace Scripted

/-- The signals and the clock of the world behind a script. -/
def facts : Facts Scripted :=
  ⟨fun s signal => World.facts.triggered s.world signal, fun s => World.facts.clock s.world⟩

theorem onward_trigger (signal : Signal) (w : World) :
    World.facts.Onward w (World.trigger signal w).2 := by
  refine ⟨fun other hother => ?_, ?_⟩
  · have hmem : other ∈ w.triggered := of_decide_eq_true hother
    refine decide_eq_true ?_
    unfold World.trigger
    split
    · exact hmem
    · exact List.mem_cons_of_mem _ hmem
  · unfold World.trigger World.facts
    dsimp only
    split
    · exact Nat.le_refl _
    · exact Nat.le_refl _

theorem onward_onStore {α : Type} (act : Instant → StateM Store α) (w : World) :
    World.facts.Onward w (World.onStore act w).2 :=
  ⟨fun _ h => h, Nat.le_refl _⟩

theorem onward_strike (rival : Rival) (id : RecordId) (w : World) :
    World.facts.Onward w (rival.strike id w).2 := by
  unfold Rival.strike
  split
  next => exact .refl _ w
  next current _ =>
    cases rival with
    | remove => exact onward_onStore (fun _ => Store.delete id current.version) w
    | apply change =>
      dsimp only
      split
      next => exact .refl _ w
      next fields _ => exact onward_onStore (fun now => Store.write now id current.version fields) w

theorem onward_carryOut (about : Option RecordId) (event : Event) (w : World) :
    World.facts.Onward w (event.carryOut about w).2 := by
  cases event with
  | fail error => exact .refl _ w
  | trigger signal => exact onward_trigger signal w
  | sleep length => exact ⟨fun _ h => h, Nat.le_add_right _ _⟩
  | interrupt rival =>
    cases about with
    | none => exact .refl _ w
    | some id => exact onward_strike rival id w

theorem keeps_onward_carryOutAll (start : World) (about : Option RecordId) (events : List Event) :
    Keeps (World.facts.Onward start) (carryOutAll about events) := by
  induction events with
  | nil => exact .pure _
  | cons event events ih =>
    refine Keeps.bind (fun w h => h.trans (onward_carryOut about event w)) fun answer => ?_
    cases answer with
    | error e => exact .pure _
    | ok u => exact ih

/-- A call that is met by a script moves on as far as the script and the call do. -/
theorem onward_meet {α : Type} (call : Call) (about : Option RecordId)
    {act : StateM World (Except StoreError α)} (hact : ∀ w, World.facts.Onward w (act w).2)
    (s : Scripted) : facts.Onward s (meet call about act s).2 := by
  have hmet : ∃ w, World.facts.Onward s.world w ∧ (meet call about act s).2.world = w := by
    unfold meet
    dsimp only
    have hscript := fun events =>
      keeps_onward_carryOutAll s.world about events s.world (.refl _ s.world)
    split
    · exact ⟨_, hscript _, rfl⟩
    · exact ⟨_, (hscript _).trans (hact _), rfl⟩
  obtain ⟨w, honward, hworld⟩ := hmet
  rw [← hworld] at honward
  exact ⟨honward.triggered, honward.clock⟩

theorem steady : surroundings.Steady facts where
  look_true _ _ h := h
  of_look_true _ _ h := h
  le_now _ := Nat.le_refl _
  now_le _ := Nat.le_refl _
  isTriggered _ s := .refl facts s
  now s := .refl facts s
  sleep _ _ := ⟨fun _ h => h, Nat.le_add_right _ _⟩
  read id s := onward_meet .read (some id) (fun w => onward_onStore _ w) s
  write id _ _ s := onward_meet .write (some id) (fun w => onward_onStore _ w) s

end Scripted

namespace Update
namespace Request

/-- Signals stay triggered and the clock does not go back.  Then a request calls the store only
    after a poll that saw nothing, it ends at a poll that sees its guard over and after a wait
    that was cut short, and the guard becoming over leaves room for one call at most; for none
    if the guard was over before the request began. -/
theorem run_heeds (req : Request) (rules : Rules) {around : Surroundings σ} {facts : Facts σ}
    (h : around.Steady facts) (s : σ) :
    (req.run rules around.transcribed ⟨s, []⟩).2.calls
        = (req.course rules around .entering s).filterMap Moment.call? ∧
      req.Heeds facts (req.course rules around .entering s) (req.run rules around s).1 ∧
      (∀ (current : Record) (made left : Nat) (reason : CancelReason) (s : σ),
        (around.watch.wait req.guard rules.policy.backoff s).1 = .ok (some reason) →
        (∀ m ∈ req.course rules around (.waiting current made left) s, m.call? = none) ∧
        ∃ reason, (req.runFrom rules around (.waiting current made left) s).1
          = .error (.cancelled req.id made reason)) ∧
      (req.guard.Over facts s →
        (∀ m ∈ req.course rules around .entering s, m.call? = none) ∧
        ∃ reason, (req.run rules around s).1 = .error (.cancelled req.id 0 reason)) := by
  have hheeds := heeds_run req rules h s
  refine ⟨calls_course .entering ⟨s, []⟩, hheeds,
    fun current made left reason s hcut => cancelled_of_cut h hcut, fun hover => ?_⟩
  have hquiet : ∀ m ∈ req.course rules around .entering s, m.call? = none :=
    fun m => call?_of_over h hover rfl
  refine ⟨hquiet, ?_⟩
  obtain ⟨m, hm, hreason⟩ := exists_reason rules h hover (p := .entering) rfl
  have hmem : m ∈ req.course rules around .entering s := by
    rw [course_next rfl]
    exact List.mem_append_left _ hm
  have hends := (hheeds.ends ⟨m, hmem, hreason⟩).1
  rw [Moment.countP_isWrite_of_quiet hquiet] at hends
  exact hends

/-- A rival commits just before the first write of an adjustment, and the caller withdraws it at
    that moment: the write is refused, and it is the last. -/
theorem run_heeds_withdrawn :
    let req := { adjust ⟨1⟩ "stock" 1 with guard := ⟨some ⟨"stop"⟩, none⟩ }
    let rules : Rules := ⟨default, ∅⟩
    let world := (World.records.create ((∅ : Fields).insert "stock" (.int 5)) default).2
    let s := Scripted.start world [⟨.write, 1, 1, .trigger ⟨"stop"⟩⟩,
      ⟨.write, 1, 1, .interrupt (.apply (.adjust ⟨"stock", 2⟩))⟩]
    Scripted.surroundings.Steady Scripted.facts ∧
      (req.course rules Scripted.surroundings .entering s).countP Moment.isWrite = 1 ∧
      (∃ m ∈ req.course rules Scripted.surroundings .entering s, m.reason? ≠ none) ∧
      ∃ reason, (req.run rules Scripted.surroundings s).1
        = .error (.cancelled req.id 1 reason) := by
  intro req rules world s
  have hheeds := (run_heeds req rules Scripted.steady s).2.1
  have hwrites : (req.course rules Scripted.surroundings .entering s).countP Moment.isWrite
      = 1 := by
    decide +kernel
  have hseen : ∃ m ∈ req.course rules Scripted.surroundings .entering s, m.reason? ≠ none := by
    decide +kernel
  have hends := (hheeds.ends hseen).1
  rw [hwrites] at hends
  exact ⟨Scripted.steady, hwrites, hseen, hends⟩

end Request
end Update
end VersionedStore
