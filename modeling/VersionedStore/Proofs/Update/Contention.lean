/-
  VersionedStore.Proofs.Update.Contention

  A request gives up for contention only after losing as many races as it was
  allowed, each of them to a commit of someone else.

  `Lost` reads lost attempts off the log, one window after the other: a window
  begins where a base was obtained, somebody else commits to the record in it, and
  it ends with the write that presents the base's version and is refused.  The
  refusal carries the base of the next window, so the windows do not overlap.

  The invariant `Contending` says of a request that is under way that its failed
  attempts are so accounted for, and that its base is still the record unless the
  window that is open holds a commit of someone else.
-/
import VersionedStore.Proofs.Update.Serializability
import VersionedStore.Proofs.Update.Spans

namespace VersionedStore

-- ============================================================================
-- Lost attempts in the log
-- ============================================================================

/-- Attempts of a client that were lost, one after the other, from the base that it began with
    to the record that the last refusal carried. -/
inductive Lost (j : Nat) (id : RecordId) (base : Record) : Nat → List Entry → Record → Prop where
  | none : Lost j id base 0 [] base
  /-- While the client works on its base, somebody else commits to the record. -/
  | again {n : Nat} {earlier window : List Entry} {last current : Record} {now : Instant}
      {fields : Fields} (h : Lost j id base n earlier last)
      (hrival : Entry.rivals j id window ≠ []) :
      Lost j id base (n + 1)
        (earlier ++ window ++
          [.mutated j ⟨id, last.version, .write now fields⟩ (.ok (.versionMismatch current))])
        current

/-- Every lost attempt is charged to a commit of its own. -/
theorem Lost.le_length {j : Nat} {id : RecordId} {base last : Record} {n : Nat}
    {log : List Entry} (h : Lost j id base n log last) : n ≤ (Entry.rivals j id log).length := by
  induction h with
  | none => exact Nat.zero_le _
  | again _ hrival ih =>
    have hwindow := List.length_pos_iff.2 hrival
    rw [Entry.rivals_append, Entry.rivals_append, List.length_append, List.length_append]
    omega

theorem Link.owner_of_writer? {id : RecordId} {l : Link} {i : Nat} (h : l.writer? id = some i) :
    l.owner = .client i ∧ l.record.id = id := by
  obtain ⟨owner, r⟩ := l
  cases owner with
  | creation k => cases h
  | client k =>
    rw [writer?] at h
    split at h
    next hid =>
      obtain rfl := Option.some.inj h
      exact ⟨rfl, hid⟩
    next => contradiction

namespace Update

/-- The attempts of a request that have failed. -/
def Phase.failed : Phase → Nat
  | .entering | .reading => 0
  | .ready a | .writing a => a.made
  | .waiting _ made _ | .rechecking _ made _ => made
  | .finished (.ok done) => done.attempts - 1
  | .finished (.error (.retryExhausted report)) => report.attempts
  | .finished (.error (.cancelled _ made _)) => made
  | .finished (.error _) => 0

/-- The base that a request is going on from. -/
def Phase.base? : Phase → Option Record
  | .ready a | .writing a => some a.base
  | .waiting current _ _ | .rechecking current _ _ => some current
  | .entering | .reading | .finished _ => none

namespace System

variable {ε : Type} {watch : Watch ε} {outside : ε} {events : List (Event ε)} {e : Event ε}
  {j : Nat} {req : Request} {rules : Rules}

-- ============================================================================
-- The rivals of a client
-- ============================================================================

/-- Whoever has committed to a record is a request that has ended well. -/
theorem Tied.committed_of_rivals {y : System ε} (h : y.Tied) {id : RecordId} {i : Nat}
    (hi : i ∈ Entry.rivals j id y.traffic.log) : i ≠ j ∧ y.Committed id i := by
  obtain ⟨hwriter, hne⟩ := List.mem_filter.1 hi
  obtain ⟨e, he, hi⟩ := List.mem_filterMap.1 hwriter
  obtain ⟨l, hlink, hl⟩ := Option.bind_eq_some_iff.1 hi
  obtain ⟨howner, hid⟩ := Link.owner_of_writer? hl
  refine ⟨of_decide_eq_true hne, h.owner_iff.1 ⟨l, ?_, howner⟩⟩
  rw [Traffic.chain, List.mem_filter, decide_eq_true_iff]
  exact ⟨List.mem_filterMap.2 ⟨e, he, hlink⟩, hid⟩

/-- The commits of others to a record are by different requests. -/
theorem Tied.nodup_rivals {y : System ε} (h : y.Tied) (j : Nat) (id : RecordId) :
    (Entry.rivals j id y.traffic.log).Nodup := by
  have hlinks : y.traffic.log.filterMap (Entry.writer? id)
      = y.traffic.links.filterMap (Link.writer? id) := by
    rw [Traffic.links, List.filterMap_filterMap]
    rfl
  have howners : y.traffic.links.Pairwise fun l m => l.owner ≠ m.owner :=
    List.pairwise_map.1 h.nodup_owners
  refine List.Nodup.filter _ ?_
  rw [hlinks]
  refine howners.filterMap (Link.writer? id) ?_
  rintro l m hne i hi k hk rfl
  exact hne ((Link.owner_of_writer? hi).1.trans (Link.owner_of_writer? hk).1.symm)

-- ============================================================================
-- The invariant
-- ============================================================================

/-- From its read on, a request has lost `n` attempts and goes on from `last`.  The window is
    what has happened since it was given that base. -/
def Losing (watch : Watch ε) (outside : ε) (events : List (Event ε)) (j : Nat) (req : Request)
    (rules : Rules) (n : Nat) (last : Record) (window : List Entry) : Prop :=
  ∃ mid now rest base lost, events = mid ++ .work j now :: rest ∧
    (run watch outside mid).jobs j = some (.update req rules .reading) ∧
    (run watch outside mid).traffic.store.get? req.id = some base ∧
    (run watch outside events).traffic.log
      = (run watch outside mid).traffic.log ++ lost ++ window ∧
    Lost j req.id base n lost last

/-- The failed attempts of a request are accounted for, and while it is under way, its base is
    still the record unless others have interfered in the window that is open. -/
structure Contending (watch : Watch ε) (outside : ε) (events : List (Event ε)) (j : Nat)
    (req : Request) (rules : Rules) (p : Phase) : Prop where
  charged : 0 < p.failed →
    ∃ last window, Losing watch outside events j req rules p.failed last window
  based : ∀ last, p.base? = some last → ∃ window,
    Losing watch outside events j req rules p.failed last window ∧
      (run watch outside events).traffic.Kept j req.id last window

theorem Losing.more {n : Nat} {last : Record} {window added : List Entry}
    (h : Losing watch outside events j req rules n last window)
    (hadded : (run watch outside (events ++ [e])).traffic.log
      = (run watch outside events).traffic.log ++ added) :
    Losing watch outside (events ++ [e]) j req rules n last (window ++ added) := by
  obtain ⟨mid, now, rest, base, lost, rfl, hreading, hget, hlog, hlost⟩ := h
  refine ⟨mid, now, rest ++ [e], base, lost, by simp, hreading, hget, ?_, hlost⟩
  rw [hadded, hlog, List.append_assoc _ window added]

theorem Losing.quiet {n : Nat} {last : Record} {window : List Entry}
    (h : Losing watch outside events j req rules n last window)
    (hsame : (run watch outside (events ++ [e])).traffic = (run watch outside events).traffic) :
    Losing watch outside (events ++ [e]) j req rules n last window := by
  have hmore : Losing watch outside (events ++ [e]) j req rules n last (window ++ []) :=
    h.more (by rw [hsame, List.append_nil])
  rwa [List.append_nil] at hmore

theorem Contending.ended {result : Result} (h : (Phase.finished result).failed = 0) :
    Contending watch outside events j req rules (.finished result) :=
  ⟨fun hpos => absurd h (Nat.ne_of_gt hpos), fun _ hbase => nomatch hbase⟩

/-- Going on from a base. -/
theorem Contending.prepare {made left : Nat} {base : Record} {window : List Entry}
    (hlosing : Losing watch outside events j req rules made base window)
    (hkept : (run watch outside events).traffic.Kept j req.id base window) :
    Contending watch outside events j req rules (req.prepare rules base made left) := by
  unfold Request.prepare
  split
  next => exact .ended rfl
  next =>
    split
    next => exact .ended rfl
    next =>
      refine ⟨fun _ => ⟨base, window, hlosing⟩, ?_⟩
      rintro last ⟨⟩
      exact ⟨window, hlosing, hkept⟩

/-- A step of the request that leaves the traffic alone, and neither its base nor its failed
    attempts change. -/
theorem Contending.quiet {p p' : Phase} (h : Contending watch outside events j req rules p)
    (hsame : (run watch outside (events ++ [e])).traffic = (run watch outside events).traffic)
    (hfailed : p'.failed = p.failed) (hbase : ∀ last, p'.base? = some last → p.base? = some last) :
    Contending watch outside (events ++ [e]) j req rules p' := by
  refine ⟨fun hpos => ?_, fun last hlast => ?_⟩
  · rw [hfailed] at hpos ⊢
    obtain ⟨last, window, hlosing⟩ := h.charged hpos
    exact ⟨last, window, hlosing.quiet hsame⟩
  · obtain ⟨window, hlosing, hkept⟩ := h.based last (hbase last hlast)
    rw [hfailed]
    refine ⟨window, hlosing.quiet hsame, ?_⟩
    rw [hsame]
    exact hkept

/-- While someone else acts. -/
theorem Contending.beside {p : Phase} (h : Contending watch outside events j req rules p)
    (hbeside : (run watch outside events).traffic.Beside j
      (run watch outside (events ++ [e])).traffic) :
    Contending watch outside (events ++ [e]) j req rules p := by
  refine ⟨fun hpos => ?_, fun last hlast => ?_⟩
  · obtain ⟨last, window, hlosing⟩ := h.charged hpos
    obtain ⟨added, hadded⟩ := hbeside.log
    exact ⟨last, window ++ added, hlosing.more hadded⟩
  · obtain ⟨window, hlosing, hkept⟩ := h.based last hlast
    have hsound := (tied_run watch outside events).ledger.sound
    obtain ⟨added, hadded, hkept'⟩ := hsound.kept_beside hbeside hkept
    exact ⟨window ++ added, hlosing.more hadded, hkept'⟩

/-- A write that is refused was lost to a commit of someone else, and is the end of a window. -/
theorem Contending.refused {a : Attempt} {current : Record} {now : Instant}
    (h : Contending watch outside events j req rules (.writing a))
    (hversion : a.expected = a.base.version)
    (hget : (run watch outside events).traffic.store.get? req.id = some current)
    (hne : current.version ≠ a.expected)
    (hlog : (run watch outside (events ++ [e])).traffic.log
      = (run watch outside events).traffic.log ++
        [.mutated j ⟨req.id, a.expected, .write now a.candidate⟩
          (.ok (.versionMismatch current))]) :
    Losing watch outside (events ++ [e]) j req rules (a.made + 1) current [] := by
  obtain ⟨window, hlosing, hkept⟩ := h.based a.base rfl
  have hrival : Entry.rivals j req.id window ≠ [] := by
    rcases hkept with hlive | hwritten | ⟨-, -, hgone⟩
    · obtain rfl := Option.some.inj (hget.symm.trans hlive)
      exact absurd hversion.symm hne
    · exact hwritten
    · rw [hget] at hgone
      contradiction
  obtain ⟨mid, started, rest, base, lost, rfl, hreading, hbase, hearlier, hlost⟩ := hlosing
  have hnow : (run watch outside (mid ++ .work j started :: rest ++ [e])).traffic.log
      = (run watch outside mid).traffic.log ++ (lost ++ window ++ [.mutated j
          ⟨req.id, a.base.version, .write now a.candidate⟩ (.ok (.versionMismatch current))])
        ++ [] := by
    rw [hlog, hearlier, hversion, List.append_nil]
    simp only [List.append_assoc]
  exact ⟨mid, started, rest ++ [e], base, _, by simp, hreading, hbase, hnow, hlost.again hrival⟩

theorem Contending.afterMismatch {a : Attempt} {current : Record}
    (hlosing : Losing watch outside events j req rules (a.made + 1) current [])
    (hget : (run watch outside events).traffic.store.get? req.id = some current) :
    Contending watch outside events j req rules (req.afterMismatch rules a current) := by
  unfold Request.afterMismatch
  split
  next => exact .ended rfl
  next =>
    split
    next => exact ⟨fun _ => ⟨current, [], hlosing⟩, fun _ hbase => nomatch hbase⟩
    next =>
      split
      next => exact .prepare hlosing (.inl hget)
      next =>
        refine ⟨fun _ => ⟨current, [], hlosing⟩, ?_⟩
        rintro last ⟨⟩
        exact ⟨[], hlosing, .inl hget⟩

/-- A step of the request. -/
theorem Contending.works {p p' : Phase} {now : Instant}
    (h : Contending watch outside events j req rules p)
    (hjob : (run watch outside events).jobs j = some (.update req rules p))
    (hacts : (Job.update req rules p).Acts j (run watch outside events).traffic
      (.update req rules p') (run watch outside (events ++ [.work j now])).traffic) :
    Contending watch outside (events ++ [.work j now]) j req rules p' := by
  have htied := (tied_run watch outside events).jobs j _ hjob
  generalize htarget : Job.update req rules p' = job' at hacts
  generalize ht : (run watch outside (events ++ [.work j now])).traffic = t' at hacts
  cases hacts with
  | rests =>
    cases htarget
    exact h.quiet ht rfl fun _ hlast => hlast
  | enters verdict =>
    cases htarget
    cases verdict with
    | none => exact h.quiet ht rfl fun _ hlast => hlast
    | some reason => exact .ended rfl
  | reads =>
    obtain rfl := (Job.update.inj htarget).2.2
    cases hget : (run watch outside events).traffic.store.get? req.id with
    | none => exact .ended rfl
    | some base =>
      have hlog : (run watch outside (events ++ [.work j now])).traffic.log
          = (run watch outside events).traffic.log ++ [] ++ [] := by
        rw [ht, List.append_nil, List.append_nil]
      refine .prepare ⟨events, now, [], base, [], rfl, hjob, hget, hlog, .none⟩ (.inl ?_)
      rw [ht, hget]
  | polls verdict =>
    cases htarget
    cases verdict with
    | none => exact h.quiet ht rfl fun _ hlast => hlast
    | some reason => exact h.quiet ht rfl fun _ hlast => nomatch hlast
  | waits outcome =>
    obtain rfl := (Job.update.inj htarget).2.2
    match outcome with
    | .error e => exact h.quiet ht rfl fun _ hlast => nomatch hlast
    | .ok (some reason) => exact h.quiet ht rfl fun _ hlast => hlast
    | .ok none =>
      obtain ⟨window, hlosing, hkept⟩ := h.based _ rfl
      exact .prepare (hlosing.quiet ht) (ht ▸ hkept)
  | rechecks verdict =>
    obtain rfl := (Job.update.inj htarget).2.2
    cases verdict with
    | some reason => exact h.quiet ht rfl fun _ hlast => nomatch hlast
    | none =>
      obtain ⟨window, hlosing, hkept⟩ := h.based _ rfl
      exact .prepare (hlosing.quiet ht) (ht ▸ hkept)
  | @writes _ _ a m written hm =>
    obtain rfl := (Job.update.inj htarget).2.2
    have houtcome := m.perform_outcome (run watch outside events).traffic.store
    have hlog : (run watch outside (events ++ [.work j now])).traffic.log
        = (run watch outside events).traffic.log ++
          [.mutated j m (m.perform (run watch outside events).traffic.store).1] := by
      rw [ht]
      rfl
    have hstore : (run watch outside (events ++ [.work j now])).traffic.store
        = (m.perform (run watch outside events).traffic.store).2 := by
      rw [ht]
      rfl
    rw [hm] at houtcome hlog hstore ⊢
    generalize (Mutation.perform _ _).1 = answer at houtcome hlog ⊢
    generalize (Mutation.perform _ _).2 = s at houtcome hstore
    cases houtcome with
    | missing | spent => exact .ended rfl
    | removed _ _ hdeed => contradiction
    | written =>
      refine ⟨fun hpos => ?_, fun _ hbase => nomatch hbase⟩
      obtain ⟨last, window, hlosing⟩ := h.charged hpos
      exact ⟨last, _, hlosing.more hlog⟩
    | stale hget hne =>
      exact .afterMismatch (h.refused htied.2.2.2.1 hget hne hlog) (hstore ▸ hget)

theorem contending_run {p : Phase}
    (h : (run watch outside events).jobs j = some (.update req rules p)) :
    Contending watch outside events j req rules p := by
  induction events using List.reverseRecOn generalizing p with
  | nil => contradiction
  | append_singleton events e ih =>
    have haffects := h
    rw [run_concat] at haffects
    replace haffects := step_job haffects
    rw [← run_concat] at haffects
    generalize hjob : Job.update req rules p = job at haffects
    cases haffects with
    | begins _ hfresh =>
      subst hjob
      obtain rfl : p = .entering := hfresh
      exact ⟨fun hpos => absurd hpos (Nat.lt_irrefl 0), fun _ hbase => nomatch hbase⟩
    | rests _ hsame hbeside => exact (ih (hjob ▸ hsame)).beside hbeside
    | works hearlier hacts =>
      subst hjob
      obtain ⟨earlier, rfl⟩ := hacts.update_inv
      exact (ih hearlier).works hearlier hacts

-- ============================================================================
-- Contention
-- ============================================================================

/-- Failed attempts are charged to commits of others. -/
structure Contended (watch : Watch ε) (outside : ε) (events : List (Event ε)) (j : Nat) :
    Prop where
  /-- The attempts of a request that have failed so far, whether it goes on or has ended, lie one
      after the other since its read, each with a commit of someone else to the same record
      between obtaining its base and presenting it. -/
  charged : ∀ req rules p, (run watch outside events).jobs j = some (.update req rules p) →
    0 < p.failed →
      ∃ mid now rest base lost last window, events = mid ++ .work j now :: rest ∧
        (run watch outside mid).jobs j = some (.update req rules .reading) ∧
        (run watch outside mid).traffic.store.get? req.id = some base ∧
        (run watch outside events).traffic.log
          = (run watch outside mid).traffic.log ++ lost ++ window ∧
        Lost j req.id base p.failed lost last ∧
        p.failed ≤ (Entry.rivals j req.id lost).length
  /-- The commits of others are by requests that have ended well, each by one of its own. -/
  others : ∀ id i, i ∈ Entry.rivals j id (run watch outside events).traffic.log →
    i ≠ j ∧ (run watch outside events).Committed id i
  distinct : ∀ id, (Entry.rivals j id (run watch outside events).traffic.log).Nodup
  /-- Only a relative change is given up for contention, and only after as many failed attempts
      as the policy allows. -/
  exhausted : ∀ req rules report, (run watch outside events).jobs j
      = some (.update req rules (.finished (.error (.retryExhausted report)))) →
    req.change.isRetryable = true ∧ report.attempts = rules.policy.bound
  /-- A request during which others commit to its record less often than it may try is not given
      up for contention. -/
  spared : ∀ before req rules during, events = before ++ .request j req rules :: during →
    (run watch outside before).jobs j = none →
      (∀ y, During watch outside events j y →
        (Entry.rivals j req.id (y.traffic.since (run watch outside before).traffic)).length
          < rules.policy.bound) →
        ∀ report, (run watch outside events).jobs j
          ≠ some (.update req rules (.finished (.error (.retryExhausted report))))

/-- A time at which a job was not taken up lies before any at which it was. -/
theorem prefix_of_vacant {before mid : List (Event ε)} {job : Job} (hbefore : before <+: events)
    (hmid : mid <+: events) (hvacant : (run watch outside before).jobs j = none)
    (hjob : (run watch outside mid).jobs j = some job) : before <+: mid := by
  rcases List.prefix_or_prefix_of_prefix hbefore hmid with hle | ⟨more, rfl⟩
  · exact hle
  · obtain ⟨job', hjob'⟩ := jobs_append hjob more
    rw [hvacant] at hjob'
    contradiction

/-- A job adds no commit of someone else to the log. -/
theorem rivals_acts {t t' : Traffic} {job job' : Job} (h : job.Acts j t job' t')
    (id : RecordId) : ∃ own, t'.log = t.log ++ own ∧ Entry.rivals j id own = [] := by
  rcases h.traffic with rfl | ⟨m, rfl⟩
  · exact ⟨[], (List.append_nil _).symm, rfl⟩
  · exact ⟨_, rfl, Entry.rivals_own j id m _⟩

/-- By the end of a request that is given up for contention, others have committed to its record
    as often as it was allowed to try. -/
theorem bound_le_rivals {before : List (Event ε)} {report : ConflictReport}
    (hbefore : before <+: events) (hvacant : (run watch outside before).jobs j = none)
    (hjob : (run watch outside events).jobs j
      = some (.update req rules (.finished (.error (.retryExhausted report))))) :
    rules.policy.bound ≤ (Entry.rivals j req.id
      ((run watch outside events).traffic.since (run watch outside before).traffic)).length := by
  obtain ⟨-, hattempts⟩ := counts_run hjob report rfl
  have hpos : 0 < (Phase.finished (.error (.retryExhausted report))).failed := by
    have hbound : 1 ≤ rules.policy.bound := Nat.le_max_left ..
    rw [Phase.failed, hattempts]
    exact hbound
  obtain ⟨last, window, read, now, rest, base, lost, rfl, hreading, hget, hlog, hlost⟩ :=
    (contending_run hjob).charged hpos
  have hlength := hlost.le_length
  rw [Phase.failed, hattempts] at hlength
  obtain ⟨more, rfl⟩ := prefix_of_vacant hbefore (List.prefix_append read _) hvacant hreading
  obtain ⟨added, hadded⟩ := log_append watch outside before more
  rw [hadded] at hlog
  simp only [List.append_assoc _ added] at hlog
  rw [Traffic.since_of_append (hlog.trans (List.append_assoc ..)), Entry.rivals_append,
    Entry.rivals_append, List.length_append, List.length_append]
  omega

/-- They have done so by the last instant of the request already, for its last step is its own. -/
theorem exists_bound_le_rivals {before : List (Event ε)} {report : ConflictReport}
    (hbefore : before <+: events) (hvacant : (run watch outside before).jobs j = none)
    (hjob : (run watch outside events).jobs j
      = some (.update req rules (.finished (.error (.retryExhausted report))))) :
    ∃ y, During watch outside events j y ∧ rules.policy.bound ≤
      (Entry.rivals j req.id (y.traffic.since (run watch outside before).traffic)).length := by
  obtain ⟨mid, now, rest, earlier, rfl, hearlier, hunder, hend, hacts⟩ := last_step hjob rfl
  have hmid : mid <+: mid ++ .work j now :: rest := List.prefix_append mid _
  have hle : before <+: mid := prefix_of_vacant hbefore hmid hvacant hearlier
  refine ⟨run watch outside mid, ⟨mid, hmid, rfl, earlier, hearlier, hunder⟩, ?_⟩
  have hbound := bound_le_rivals (hle.trans (List.prefix_append mid _)) hvacant hend
  obtain ⟨more, rfl⟩ := hle
  obtain ⟨added, hadded⟩ := log_append watch outside before more
  obtain ⟨own, hlog, hnone⟩ := rivals_acts hacts req.id
  rw [hadded] at hlog
  rw [Traffic.since_of_append (hlog.trans (List.append_assoc ..)), Entry.rivals_append, hnone,
    List.append_nil] at hbound
  rw [Traffic.since_of_append hadded]
  exact hbound

/-- However the steps of any number of clients interleave, with any requests and policies, every
    failed attempt of a request is charged to a commit of another request that took place while
    the attempt was under way. -/
theorem run_contended (watch : Watch ε) (outside : ε) (events : List (Event ε)) (j : Nat) :
    Contended watch outside events j where
  charged req rules p hjob hfailed := by
    obtain ⟨last, window, mid, now, rest, base, lost, hevents, hreading, hget, hlog, hlost⟩ :=
      (contending_run hjob).charged hfailed
    exact ⟨mid, now, rest, base, lost, last, window, hevents, hreading, hget, hlog, hlost,
      hlost.le_length⟩
  others id i hi := (tied_run watch outside events).committed_of_rivals hi
  distinct id := (tied_run watch outside events).nodup_rivals j id
  exhausted req rules report hjob := counts_run hjob report rfl
  spared before req rules during hevents hvacant hfew report hjob := by
    obtain ⟨y, hduring, hbound⟩ := exists_bound_le_rivals ⟨_, hevents.symm⟩ hvacant hjob
    exact absurd hbound (Nat.not_le.2 (hfew y hduring))

/-- Two adjustments have read the same state; the one that may try only once loses to the other. -/
example :
    let watch : Watch Unit := ⟨fun _ => pure false, pure 0, fun _ => pure (), none⟩
    let once : Rules := ⟨⟨1, .zero⟩, ∅⟩
    let adjust (j : Nat) : Event Unit := .request j (.adjust ⟨1⟩ "stock" 1) once
    let work (j : Nat) : Event Unit := .work j default
    let fields (n : Int64) := (∅ : Fields).insert "stock" (.int n)
    let y := run watch () [
      .ask 0 (fields 5), .advance 0 default, .advance 0 default, .advance 0 default, adjust 1,
      adjust 2, work 1, work 2, work 1, work 2, work 1, work 2, work 2, work 1]
    y.jobs 1 = some (.update (.adjust ⟨1⟩ "stock" 1) once (.finished (.error (.retryExhausted
        ⟨⟨1⟩, ⟨1⟩, ⟨⟨1⟩, fields 6, ⟨2⟩, default, some default⟩, 1⟩)))) ∧
      Entry.rivals 1 ⟨1⟩ y.traffic.log = [2] :=
  ⟨rfl, rfl⟩

end System

end Update
end VersionedStore
