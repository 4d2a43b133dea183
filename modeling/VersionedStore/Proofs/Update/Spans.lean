/-
  VersionedStore.Proofs.Update.Spans

  One job from its beginning to its end, while others act.

  `System.step_job` says once what one event can do to a job: it takes the job up,
  or it is a step of someone else that leaves the job alone, or it is the job's own
  next step.  So a job that is over has taken a last step, at an instant at which
  it was under way (`System.last_step`).

  What others do to a record that is live shows in the log (`Sound.beside`): they
  leave it as it is, or one of them has written to it or removed it.
-/
import VersionedStore.Proofs.Update.Ties

namespace VersionedStore

-- ============================================================================
-- Rivals in the log
-- ============================================================================

/-- The client that has committed a state of a record. -/
def Link.writer? (id : RecordId) : Link → Option Nat
  | ⟨.client i, r⟩ => if r.id = id then some i else none
  | ⟨.creation _, _⟩ => none

namespace Entry

/-- The client that has written to a record. -/
def writer? (id : RecordId) (e : Entry) : Option Nat :=
  e.link?.bind (Link.writer? id)

/-- The client that has removed a record. -/
def remover? (id : RecordId) (e : Entry) : Option Nat :=
  e.removal?.bind fun (i, r) => if r.id = id then some i else none

/-- The clients other than `j` that have written to a record, in the order of their commits. -/
def rivals (j : Nat) (id : RecordId) (log : List Entry) : List Nat :=
  (log.filterMap (writer? id)).filter (· ≠ j)

/-- The clients other than `j` that have removed a record. -/
def removers (j : Nat) (id : RecordId) (log : List Entry) : List Nat :=
  (log.filterMap (remover? id)).filter (· ≠ j)

theorem rivals_append (j : Nat) (id : RecordId) (log more : List Entry) :
    rivals j id (log ++ more) = rivals j id log ++ rivals j id more := by
  simp [rivals]

theorem removers_append (j : Nat) (id : RecordId) (log more : List Entry) :
    removers j id (log ++ more) = removers j id log ++ removers j id more := by
  simp [removers]

/-- Nobody is a rival of their own. -/
theorem rivals_own (j : Nat) (id : RecordId) (m : Mutation)
    (answer : Except StoreError WriteOutcome) : rivals j id [.mutated j m answer] = [] := by
  have hwriter : ∀ i, (Entry.mutated j m answer).writer? id = some i → i = j := by
    intro i hi
    obtain ⟨⟨owner, r⟩, hlink, hwriter⟩ := Option.bind_eq_some_iff.1 hi
    obtain ⟨mid, expected, deed⟩ := m
    cases deed with
    | delete => cases hlink
    | write now fields =>
      match answer with
      | .error e => cases hlink
      | .ok .notFound => cases hlink
      | .ok (.versionMismatch current) => cases hlink
      | .ok (.committed next) =>
        cases hlink
        simp only [Link.writer?] at hwriter
        split at hwriter
        next => exact (Option.some.inj hwriter).symm
        next => contradiction
  rw [rivals, List.filter_eq_nil_iff]
  intro i hi
  obtain ⟨e, he, hi⟩ := List.mem_filterMap.1 hi
  rw [List.mem_singleton] at he
  simpa using hwriter i (he ▸ hi)

end Entry

namespace Traffic

/-- What the log has gained since an earlier time. -/
def since (t earlier : Traffic) : List Entry :=
  t.log.drop earlier.log.length

theorem since_of_append {t earlier : Traffic} {added : List Entry}
    (h : t.log = earlier.log ++ added) : t.since earlier = added := by
  rw [since, h, List.drop_left]

theorem log_step (t : Traffic) (a : Action) : ∃ added, (t.step a).log = t.log ++ added := by
  have hmoves := t.step_moves a
  generalize t.step a = t' at hmoves
  cases hmoves with
  | asks | taken | rests | named | unnamed | stamped | unstamped =>
    exact ⟨[], (List.append_nil _).symm⟩
  | enters | mutates => exact ⟨_, rfl⟩

/-- From one time to another, client `j` has neither written nor removed anything. -/
def Beside (j : Nat) (t t' : Traffic) : Prop :=
  t' = t ∨ ∃ a, t' = t.step a ∧ ∀ m, a ≠ .mutate j m

theorem Beside.log {t t' : Traffic} {j : Nat} (h : t.Beside j t') :
    ∃ added, t'.log = t.log ++ added := by
  rcases h with rfl | ⟨a, rfl, -⟩
  · exact ⟨[], (List.append_nil _).symm⟩
  · exact t.log_step a

/-- A record is as it was, or someone other than `j` has written to it since, or someone else has
    removed it for good. -/
def Kept (t : Traffic) (j : Nat) (id : RecordId) (r : Record) (since : List Entry) : Prop :=
  t.store.get? id = some r ∨ Entry.rivals j id since ≠ [] ∨
    Entry.removers j id since ≠ [] ∧ t.Born id ∧ t.store.get? id = none

/-- What one step of someone else can do to a record that is live, by what the log tells. -/
theorem Sound.beside {t t' : Traffic} (hs : t.Sound) {j : Nat} (h : t.Beside j t')
    {id : RecordId} {r : Record} (hr : t.store.get? id = some r) :
    ∃ added, t'.log = t.log ++ added ∧ t'.Kept j id r added := by
  rcases h with rfl | ⟨a, rfl, ha⟩
  · exact ⟨[], (List.append_nil _).symm, .inl hr⟩
  have hmoves := t.step_moves a
  have hborn := t.born_step a (hs.born_of_get? hr)
  generalize t.step a = t' at hmoves hborn
  cases hmoves with
  | asks | taken | rests | named | unnamed | stamped | unstamped =>
    exact ⟨[], (List.append_nil _).symm, .inl hr⟩
  | @enters k now fields q hc =>
    refine ⟨_, rfl, .inl ?_⟩
    have hpending : t.pendingOf k = some q := by simp [pendingOf, hc, Stage.pending?]
    have hne : q.id ≠ id := fun hid => hs.not_born hpending (hid ▸ hs.born_of_get? hr)
    rw [Store.get?_enter, if_neg hne, hr]
  | @mutates client m answer s houtcome =>
    have hclient : client ≠ j := by
      rintro rfl
      exact ha m rfl
    obtain ⟨mid, expected, deed⟩ := m
    cases houtcome with
    | missing | stale | spent => exact ⟨_, rfl, .inl hr⟩
    | @written current now fields n hget hversion hdeed hnext =>
      subst hdeed
      refine ⟨_, rfl, ?_⟩
      unfold Kept
      rw [Store.get?_enter]
      split
      next hid =>
        refine .inr (.inl ?_)
        simp [Entry.rivals, Entry.writer?, Entry.link?, Link.writer?, hid, hclient]
      next => exact .inl hr
    | @removed current hget hversion hdeed =>
      subst hdeed
      refine ⟨_, rfl, ?_⟩
      unfold Kept
      rw [Store.get?_erase]
      split
      next hid =>
        have hcurrent : current.id = id := (hs.live hget).1.trans hid
        refine .inr (.inr ⟨?_, hborn, rfl⟩)
        simp [Entry.removers, Entry.remover?, Entry.removal?, hcurrent, hclient]
      next => exact .inl hr

theorem Sound.kept_beside {t t' : Traffic} (hs : t.Sound) {j : Nat} (h : t.Beside j t')
    {id : RecordId} {r : Record} {window : List Entry} (hkept : t.Kept j id r window) :
    ∃ added, t'.log = t.log ++ added ∧ t'.Kept j id r (window ++ added) := by
  rcases hkept with hr | hwritten | ⟨hremoved, hborn, hgone⟩
  · obtain ⟨added, hadded, hlive | hwritten | ⟨hremoved, hgone⟩⟩ := hs.beside h hr
    · exact ⟨added, hadded, .inl hlive⟩
    · refine ⟨added, hadded, .inr (.inl ?_)⟩
      rw [Entry.rivals_append]
      exact List.append_ne_nil_of_right_ne_nil _ hwritten
    · refine ⟨added, hadded, .inr (.inr ⟨?_, hgone⟩)⟩
      rw [Entry.removers_append]
      exact List.append_ne_nil_of_right_ne_nil _ hremoved
  · obtain ⟨added, hadded⟩ := h.log
    refine ⟨added, hadded, .inr (.inl ?_)⟩
    rw [Entry.rivals_append]
    exact List.append_ne_nil_of_left_ne_nil hwritten _
  · obtain ⟨added, hadded⟩ := h.log
    have hgone' : t'.Born id ∧ t'.store.get? id = none := by
      rcases h with rfl | ⟨a, rfl, -⟩
      · exact ⟨hborn, hgone⟩
      · have hlater := hs.later_step a hborn
        rw [hgone] at hlater
        exact ⟨t.born_step a hborn, hlater.eq_none⟩
    refine ⟨added, hadded, .inr (.inr ⟨?_, hgone'⟩)⟩
    rw [Entry.removers_append]
    exact List.append_ne_nil_of_left_ne_nil hremoved _

end Traffic

-- ============================================================================
-- One event and one job
-- ============================================================================

namespace Update

variable {ε : Type}

namespace Job

/-- A job before its first step. -/
def Fresh : Job → Prop
  | .update _ _ p => p = .entering
  | .removal _ _ answer => answer = none

/-- Whether a job is over. -/
def isOver : Job → Bool
  | .update _ _ p => p.result?.isSome
  | .removal _ _ answer => answer.isSome

variable {client : Nat} {t t' : Traffic} {job job' : Job} {req : Request} {rules : Rules}

theorem Acts.update_inv {p' : Phase} (h : job.Acts client t (.update req rules p') t') :
    ∃ p, job = .update req rules p := by
  generalize hjob : Job.update req rules p' = job' at h
  cases h <;> cases hjob <;> exact ⟨_, rfl⟩

/-- A job that is over stays as it is. -/
theorem Acts.eq_of_isOver (h : job.Acts client t job' t') (hover : job.isOver = true) :
    job' = job ∧ t' = t := by
  cases h with
  | rests => exact ⟨rfl, rfl⟩
  | enters | reads | polls | writes | waits | rechecks | removes => contradiction

/-- A job that is under way gets on with each of its steps. -/
theorem next_ne (around : Surroundings (Traffic × ε)) (job : Job) (s : Traffic × ε)
    (hunder : job.isOver = false) : (job.next around s).1 ≠ job := by
  cases job with
  | update req rules p =>
    have hp : p.result? = none := by simpa [isOver] using hunder
    have hlt := @Request.rank_next_lt req rules _ around p s hp
    intro heq
    have hphase : (req.next rules around p s).1 = p := (Job.update.inj heq).2.2
    rw [hphase] at hlt
    exact Nat.lt_irrefl _ hlt
  | removal id expected answer =>
    cases answer with
    | some answer => contradiction
    | none => exact fun heq => nomatch (Job.removal.inj heq).2.2

end Job

namespace System

variable {watch : Watch ε} {outside : ε} {y : System ε} {e : Event ε} {j : Nat}

theorem take_of_some {job job' : Job} (hj : y.jobs j = some job) : y.take j job' = y := by
  rw [take, hj]

theorem take_of_none {job : Job} (hj : y.jobs j = none) :
    y.take j job = { y with jobs := Function.update y.jobs j (some job) } := by
  rw [take, hj]

theorem traffic_take (y : System ε) (i : Nat) (job : Job) :
    (y.take i job).traffic = y.traffic := by
  unfold take
  split <;> rfl

/-- What one event can do to one job. -/
inductive Affects (y : System ε) (j : Nat) (y' : System ε) : Event ε → Job → Prop where
  | begins {e : Event ε} {job : Job} (hvacant : y.jobs j = none) (hfresh : job.Fresh)
      (hsame : y'.traffic = y.traffic) : Affects y j y' e job
  /-- Someone else acts. -/
  | rests {e : Event ε} {job : Job} (hother : ∀ now, e ≠ .work j now)
      (hjob : y.jobs j = some job) (hbeside : y.traffic.Beside j y'.traffic) : Affects y j y' e job
  | works {now : Instant} {job job' : Job} (hjob : y.jobs j = some job)
      (hacts : job.Acts j y.traffic job' y'.traffic)
      (hprogress : job.isOver = false → job' ≠ job) : Affects y j y' (.work j now) job'

theorem affects_take {i : Nat} {job fresh : Job} (hother : ∀ now, e ≠ .work j now)
    (hfresh : fresh.Fresh) (h : (y.take i fresh).jobs j = some job) :
    y.Affects j (y.take i fresh) e job := by
  cases hi : y.jobs i with
  | some other =>
    rw [take_of_some hi] at h ⊢
    exact .rests hother h (.inl rfl)
  | none =>
    rw [take_of_none hi, jobs_update] at h
    rw [take_of_none hi]
    split at h
    next hij =>
      subst hij
      obtain rfl := Option.some.inj h
      exact .begins hi hfresh rfl
    next => exact .rests hother h (.inl rfl)

theorem step_job {job : Job} (h : (y.step watch e).jobs j = some job) :
    y.Affects j (y.step watch e) e job := by
  cases e with
  | ask k fields => exact .rests (by simp) h (.inr ⟨.ask k fields, rfl, by simp⟩)
  | advance k now => exact .rests (by simp) h (.inr ⟨.advance k now, rfl, by simp⟩)
  | request i req rules =>
    have hfresh : (Job.update req rules .entering).Fresh := rfl
    exact affects_take (by simp) hfresh h
  | removal i id expected =>
    have hfresh : (Job.removal id expected none).Fresh := rfl
    exact affects_take (by simp) hfresh h
  | drift change => exact .rests (by simp) h (.inl rfl)
  | work i now =>
    cases hi : y.jobs i with
    | none =>
      have hij : i ≠ j := by
        rintro rfl
        rw [step_work_of_none hi, hi] at h
        contradiction
      rw [step_work_of_none hi] at h ⊢
      exact .rests (by simp [hij]) h (.inl rfl)
    | some other =>
      have hacts := other.next_acts watch i now y.traffic y.outside
      have hprogress := other.next_ne (Client.surroundings watch i now) (y.traffic, y.outside)
      rw [step_work_of_some hi, jobs_update] at h
      rw [step_work_of_some hi]
      split at h
      next hij =>
        subst hij
        obtain rfl := Option.some.inj h
        exact .works hi hacts hprogress
      next hij =>
        refine .rests (by simp [Ne.symm hij]) h ?_
        rcases hacts.traffic with hsame | ⟨m, hstep⟩
        · exact .inl hsame
        · refine .inr ⟨.mutate i m, hstep, fun m' heq => hij ?_⟩
          exact (Traffic.Action.mutate.inj heq).1.symm

-- ============================================================================
-- Runs
-- ============================================================================

theorem run_concat (watch : Watch ε) (outside : ε) (events : List (Event ε)) (e : Event ε) :
    run watch outside (events ++ [e]) = (run watch outside events).step watch e := by
  rw [run, run, List.foldl_append]
  rfl

/-- A job that was taken up stays. -/
theorem jobs_step {job : Job} (hj : y.jobs j = some job) (watch : Watch ε) (e : Event ε) :
    ∃ job', (y.step watch e).jobs j = some job' := by
  have htake : ∀ {i : Nat} {fresh : Job}, (y.take i fresh).jobs j = some job := by
    intro i fresh
    cases hi : y.jobs i with
    | some other => rw [take_of_some hi, hj]
    | none =>
      have hij : j ≠ i := by
        rintro rfl
        rw [hi] at hj
        contradiction
      rw [take_of_none hi, jobs_update, if_neg hij, hj]
  cases e with
  | ask | advance | drift => exact ⟨job, hj⟩
  | request | removal => exact ⟨job, htake⟩
  | work i now =>
    cases hi : y.jobs i with
    | none =>
      rw [step_work_of_none hi]
      exact ⟨job, hj⟩
    | some other =>
      rw [step_work_of_some hi, jobs_update]
      split
      · exact ⟨_, rfl⟩
      · exact ⟨job, hj⟩

theorem jobs_append {events : List (Event ε)} {job : Job}
    (hj : (run watch outside events).jobs j = some job) (more : List (Event ε)) :
    ∃ job', (run watch outside (events ++ more)).jobs j = some job' := by
  induction more using List.reverseRecOn with
  | nil => exact ⟨job, by rw [List.append_nil, hj]⟩
  | append_singleton more e ih =>
    obtain ⟨job', hjob'⟩ := ih
    rw [← List.append_assoc, run_concat]
    exact jobs_step hjob' watch e

theorem log_of_step (y : System ε) (watch : Watch ε) (e : Event ε) :
    ∃ added, (y.step watch e).traffic.log = y.traffic.log ++ added := by
  have hsame : ∀ {t : Traffic}, t = y.traffic → ∃ added, t.log = y.traffic.log ++ added := by
    rintro t rfl
    exact ⟨[], (List.append_nil _).symm⟩
  cases e with
  | ask | advance => exact y.traffic.log_step _
  | drift change => exact hsame rfl
  | request i req rules => exact hsame (y.traffic_take i _)
  | removal i id expected => exact hsame (y.traffic_take i _)
  | work i now =>
    cases hi : y.jobs i with
    | none =>
      rw [step_work_of_none hi]
      exact hsame rfl
    | some job =>
      have hacts := job.next_acts watch i now y.traffic y.outside
      rw [step_work_of_some hi]
      rcases hacts.traffic with hquiet | ⟨m, hmutate⟩
      · exact hsame hquiet
      · rw [hmutate]
        exact y.traffic.log_step _

/-- The log only grows. -/
theorem log_append (watch : Watch ε) (outside : ε) (events more : List (Event ε)) :
    ∃ added, (run watch outside (events ++ more)).traffic.log
      = (run watch outside events).traffic.log ++ added := by
  induction more using List.reverseRecOn with
  | nil => exact ⟨[], by rw [List.append_nil, List.append_nil]⟩
  | append_singleton more e ih =>
    obtain ⟨added, hadded⟩ := ih
    obtain ⟨last, hlast⟩ := (run watch outside (events ++ more)).log_of_step watch e
    refine ⟨added ++ last, ?_⟩
    rw [← List.append_assoc, run_concat, hlast, hadded, List.append_assoc]

/-- A job that is over was under way, and its last step ended it. -/
theorem last_step {events : List (Event ε)} {job : Job}
    (hjob : (run watch outside events).jobs j = some job) (hover : job.isOver = true) :
    ∃ mid now rest earlier, events = mid ++ .work j now :: rest ∧
      (run watch outside mid).jobs j = some earlier ∧ earlier.isOver = false ∧
      (run watch outside (mid ++ [.work j now])).jobs j = some job ∧
      earlier.Acts j (run watch outside mid).traffic job
        (run watch outside (mid ++ [.work j now])).traffic := by
  induction events using List.reverseRecOn with
  | nil => simp [run, start] at hjob
  | append_singleton events e ih =>
    have hlater : (run watch outside events).jobs j = some job →
        ∃ mid now rest earlier, events ++ [e] = mid ++ .work j now :: rest ∧
          (run watch outside mid).jobs j = some earlier ∧ earlier.isOver = false ∧
          (run watch outside (mid ++ [.work j now])).jobs j = some job ∧
          earlier.Acts j (run watch outside mid).traffic job
            (run watch outside (mid ++ [.work j now])).traffic := by
      intro hsame
      obtain ⟨mid, now, rest, earlier, rfl, hrest⟩ := ih hsame
      exact ⟨mid, now, rest ++ [e], earlier, by simp, hrest⟩
    have hrun := run_concat watch outside events e
    rw [hrun] at hjob
    cases step_job hjob with
    | begins _ hfresh =>
      cases job with
      | update req rules p =>
        obtain rfl : p = .entering := hfresh
        contradiction
      | removal id expected answer =>
        obtain rfl : answer = none := hfresh
        contradiction
    | rests _ hsame => exact hlater hsame
    | @works now earlier _ hearlier hacts =>
      cases hunder : earlier.isOver with
      | true =>
        obtain ⟨rfl, -⟩ := hacts.eq_of_isOver hunder
        exact hlater hearlier
      | false =>
        exact ⟨events, now, [], earlier, rfl, hearlier, hunder, hrun ▸ hjob, hrun ▸ hacts⟩

-- ============================================================================
-- Instants of a job
-- ============================================================================

/-- The state of a system at an instant of a run at which a job is under way: it was taken up,
    and its last step is still to come. -/
def During (watch : Watch ε) (outside : ε) (events : List (Event ε)) (j : Nat) (y : System ε) :
    Prop :=
  ∃ mid, mid <+: events ∧ y = run watch outside mid ∧
    ∃ job, y.jobs j = some job ∧ job.isOver = false

theorem During.append {events : List (Event ε)} (h : During watch outside events j y)
    (more : List (Event ε)) : During watch outside (events ++ more) j y := by
  obtain ⟨mid, hmid, hrest⟩ := h
  exact ⟨mid, hmid.trans (List.prefix_append events more), hrest⟩

end System

-- ============================================================================
-- What a request keeps of its attempts
-- ============================================================================

namespace Request

variable {req : Request} {rules : Rules} {t t' : Traffic} {client : Nat}

/-- What a request keeps of its attempts: those made and those left add up to the bound, every
    write presents what its base calls for, and only relative changes are tried again. -/
def Counts (req : Request) (rules : Rules) : Phase → Prop
  | .entering | .reading => True
  | .ready a | .writing a =>
    a.expected = req.presented a.base ∧ a.made + a.left + 1 = rules.policy.bound ∧
      (req.change.isRetryable = false → a.made = 0)
  | .waiting _ made left | .rechecking _ made left =>
    req.change.isRetryable = true ∧ made + left + 1 = rules.policy.bound
  | .finished result => ∀ report, result = .error (.retryExhausted report) →
    req.change.isRetryable = true ∧ report.attempts = rules.policy.bound

theorem counts_prepare (base : Record) {made left : Nat}
    (hbound : made + left + 1 = rules.policy.bound)
    (hmade : req.change.isRetryable = false → made = 0) :
    req.Counts rules (req.prepare rules base made left) := by
  unfold prepare
  split
  next => exact fun report h => nomatch h
  next =>
    split
    next => exact fun report h => nomatch h
    next => exact ⟨rfl, hbound, hmade⟩

theorem counts_afterMismatch {a : Attempt} (h : req.Counts rules (.writing a))
    (current : Record) : req.Counts rules (req.afterMismatch rules a current) := by
  obtain ⟨-, hbound, -⟩ := h
  unfold afterMismatch
  cases hretry : req.change.isRetryable with
  | false => exact fun report h => nomatch h
  | true =>
    cases hleft : a.left with
    | zero =>
      rintro report ⟨⟩
      rw [hleft] at hbound
      exact ⟨hretry, hbound⟩
    | succ left =>
      have hnext : a.made + 1 + left + 1 = rules.policy.bound := by omega
      simp only [Bool.not_true, Bool.false_eq_true, if_false]
      split
      next =>
        refine counts_prepare current hnext fun hsnapshot => ?_
        rw [hretry] at hsnapshot
        contradiction
      next => exact ⟨hretry, hnext⟩

theorem counts_acts {p p' : Phase} (h : req.Counts rules p)
    (hacts : (Job.update req rules p).Acts client t (.update req rules p') t') :
    req.Counts rules p' := by
  generalize hjob : Job.update req rules p' = job' at hacts
  cases hacts with
  | rests =>
    cases hjob
    exact h
  | enters verdict =>
    cases hjob
    cases verdict with
    | none => exact trivial
    | some reason => exact fun report heq => nomatch heq
  | reads =>
    cases hjob
    cases t.store.get? req.id with
    | none => exact fun report heq => nomatch heq
    | some base =>
      have hbound : 1 ≤ rules.policy.bound := Nat.le_max_left ..
      exact counts_prepare base (by omega) fun _ => rfl
  | polls verdict =>
    cases hjob
    cases verdict with
    | none => exact h
    | some reason => exact fun report heq => nomatch heq
  | @writes _ _ a m =>
    cases hjob
    match (m.perform t.store).1 with
    | .error e => exact fun report heq => nomatch heq
    | .ok (.committed r) => exact fun report heq => nomatch heq
    | .ok .notFound => exact fun report heq => nomatch heq
    | .ok (.versionMismatch current) => exact counts_afterMismatch h current
  | @waits _ _ current made left outcome =>
    cases hjob
    match outcome with
    | .error e => exact fun report heq => nomatch heq
    | .ok (some reason) => exact h
    | .ok none =>
      exact counts_prepare current h.2 fun hsnapshot => absurd h.1 (by simp [hsnapshot])
  | @rechecks _ _ current made left verdict =>
    cases hjob
    cases verdict with
    | some reason => exact fun report heq => nomatch heq
    | none => exact counts_prepare current h.2 fun hsnapshot => absurd h.1 (by simp [hsnapshot])

end Request

theorem System.counts_run {watch : Watch ε} {outside : ε} {events : List (Event ε)} {j : Nat}
    {req : Request} {rules : Rules} {p : Phase}
    (h : (run watch outside events).jobs j = some (.update req rules p)) : req.Counts rules p := by
  induction events using List.reverseRecOn generalizing p with
  | nil => simp [run, start] at h
  | append_singleton events e ih =>
    rw [run_concat] at h
    generalize hjob : Job.update req rules p = job at h
    cases step_job h with
    | begins _ hfresh =>
      subst hjob
      obtain rfl : p = .entering := hfresh
      exact trivial
    | rests _ hsame => exact ih (hjob ▸ hsame)
    | works hearlier hacts =>
      subst hjob
      obtain ⟨earlier, rfl⟩ := hacts.update_inv
      exact Request.counts_acts (ih hearlier) hacts

end Update
end VersionedStore
