/-
  VersionedStore.Proofs.Update.Ties

  What ties clients at work to the history of the store that they work on.

  A request works on a base that it has read, or that a refusal has carried,
  while others go on.  The invariant `Tied` says that the base is some committed
  state, that the write presents its version and that its fields are the change
  of the base.  No two committed states carry one version, so a write that takes
  place finds the very base that it was worked out from (`Request.Tied.base_eq`).
-/
import VersionedStore.Proofs.Store.Ledger
import VersionedStore.Proofs.Update.Clients

namespace VersionedStore.Update

variable {ε : Type}

/-- The request of a job, if it is not a removal. -/
def Job.request? : Job → Option Request
  | .update req _ _ => some req
  | .removal .. => none

namespace System

/-- The request of a client. -/
def request? (y : System ε) (j : Nat) : Option Request :=
  (y.jobs j).bind Job.request?

/-- A committed state comes from another by the change of one request to the record. -/
def Follows (y : System ε) (id : RecordId) (l m : Link) : Prop :=
  ∃ j req, m.owner = .client j ∧ y.request? j = some req ∧ req.id = id ∧
    req.change.apply l.record.fields = .ok m.record.fields

end System

-- ============================================================================
-- The invariant
-- ============================================================================

/-- What ties a request to the history of the store. -/
def Request.Tied (req : Request) (t : Traffic) (client : Nat) : Phase → Prop
  | .entering | .reading | .finished (.error _) => t.ownedBy (.client client) = []
  | .ready a | .writing a =>
    t.ownedBy (.client client) = [] ∧ t.Past a.base ∧ a.expected = a.base.version ∧
      req.change.apply a.base.fields = .ok a.candidate
  | .waiting current _ _ | .rechecking current _ _ =>
    t.ownedBy (.client client) = [] ∧ t.Past current
  | .finished (.ok done) =>
    t.ownedBy (.client client) = [⟨.client client, done.record⟩] ∧ done.record.id = req.id

/-- What ties a job to the history of the store. -/
def Job.Tied (t : Traffic) (client : Nat) : Job → Prop
  | .update req _ p => t.removedBy client = [] ∧ req.Tied t client p
  | .removal id _ (some (.ok r)) =>
    t.ownedBy (.client client) = [] ∧ t.removedBy client = [(client, r)] ∧ r.id = id
  | .removal _ _ (some (.error _)) | .removal _ _ none =>
    t.ownedBy (.client client) = [] ∧ t.removedBy client = []

/-- The history of the store and the jobs of its clients fit together. -/
structure System.Tied (y : System ε) : Prop where
  ledger : y.traffic.Ledger
  jobs : ∀ j job, y.jobs j = some job → job.Tied y.traffic j
  vacant : ∀ j, y.jobs j = none →
    y.traffic.ownedBy (.client j) = [] ∧ y.traffic.removedBy j = []
  follows : ∀ id, (y.traffic.chain id).IsChain (y.Follows id)

-- ============================================================================
-- What one step of a job keeps
-- ============================================================================

section Step

variable {t t' : Traffic} {client : Nat} {job job' : Job} {req : Request} {rules : Rules}

theorem Request.tied_prepare (hown : t.ownedBy (.client client) = []) {base : Record}
    (hbase : t.Past base) (made left : Nat) :
    req.Tied t client (req.prepare rules base made left) := by
  unfold prepare
  split
  next => exact hown
  next hstale =>
    split
    next => exact hown
    next fields hcandidate =>
      exact ⟨hown, hbase, presented_of_stale?_eq_none hstale,
        (candidate_eq_ok_iff.1 hcandidate).1⟩

theorem Request.tied_afterMismatch (hown : t.ownedBy (.client client) = []) {a : Attempt}
    {current : Record} (hcurrent : t.Past current) :
    req.Tied t client (req.afterMismatch rules a current) := by
  unfold afterMismatch
  split
  next => exact hown
  next =>
    split
    next => exact hown
    next =>
      split
      next => exact tied_prepare hown hcurrent _ _
      next => exact ⟨hown, hcurrent⟩

/-- A request that is told of its write owns what it has written, if anything. -/
theorem Request.tied_afterWrite (hl : t.Ledger) (hown : t.ownedBy (.client client) = [])
    {a : Attempt} {m : Mutation} {now : Instant} {answer : Except StoreError WriteOutcome}
    (hm : m = ⟨req.id, a.expected, .write now a.candidate⟩) (htold : t.Told client m t' answer)
    (hpast : ∀ r, t.Past r → t'.Past r) : req.Tied t' client (req.afterWrite rules a answer) := by
  cases htold with
  | refused hlinks _ hno hcurrent =>
    have hown' : t'.ownedBy (.client client) = [] := by
      rw [Traffic.ownedBy_of_links hlinks, hown]
    match answer with
    | .error e => exact hown'
    | .ok .notFound => exact hown'
    | .ok (.committed r) => exact absurd rfl (hno r)
    | .ok (.versionMismatch r) =>
      exact tied_afterMismatch hown' (hpast r (hl.sound.live (hcurrent r rfl)).2)
  | written _ hlinks _ hcurrent _ hid =>
    refine ⟨?_, ?_⟩
    · rw [Traffic.ownedBy_append hlinks, if_pos rfl, hown]
      rfl
    · rw [hid, (hl.sound.live hcurrent).1, hm]
  | removed hdeed =>
    rw [hm] at hdeed
    contradiction

/-- A client that is told of its removal has removed what it is told, if anything. -/
theorem Job.tied_afterRemoval (hl : t.Ledger) (hown : t.ownedBy (.client client) = [])
    (hremoved : t.removedBy client = []) {id : RecordId} {expected : Version} {m : Mutation}
    {answer : Except StoreError WriteOutcome} (hm : m = ⟨id, expected, .delete⟩)
    (htold : t.Told client m t' answer) :
    (Job.removal id expected (some (afterRemoval id expected answer))).Tied t' client := by
  have hown' : t'.ownedBy (.client client) = [] := by
    rw [Traffic.ownedBy_of_links (htold.links_eq (by rw [hm])), hown]
  cases htold with
  | refused _ hremovals hno =>
    have hremoved' : t'.removedBy client = [] := by
      rw [Traffic.removedBy_of_removals hremovals, hremoved]
    match answer with
    | .error e => exact ⟨hown', hremoved'⟩
    | .ok .notFound => exact ⟨hown', hremoved'⟩
    | .ok (.committed r) => exact absurd rfl (hno r)
    | .ok (.versionMismatch r) => exact ⟨hown', hremoved'⟩
  | written hdeed =>
    rw [hm] at hdeed
    contradiction
  | removed _ _ hremovals hcurrent =>
    refine ⟨hown', ?_, ?_⟩
    · rw [Traffic.removedBy_append hremovals, if_pos rfl, hremoved]
      rfl
    · rw [(hl.sound.live hcurrent).1, hm]

theorem Job.Acts.tied (hl : t.Ledger) (hacts : job.Acts client t job' t')
    (h : job.Tied t client) : job'.Tied t' client := by
  cases hacts with
  | rests => exact h
  | enters verdict => cases verdict <;> exact h
  | polls verdict =>
    obtain ⟨hremoved, hown, hrest⟩ := h
    cases verdict with
    | none => exact ⟨hremoved, hown, hrest⟩
    | some reason => exact ⟨hremoved, hown⟩
  | waits outcome =>
    obtain ⟨hremoved, hown, hpast⟩ := h
    match outcome with
    | .error e => exact ⟨hremoved, hown⟩
    | .ok none => exact ⟨hremoved, Request.tied_prepare hown hpast _ _⟩
    | .ok (some reason) => exact ⟨hremoved, hown, hpast⟩
  | rechecks verdict =>
    obtain ⟨hremoved, hown, hpast⟩ := h
    cases verdict with
    | none => exact ⟨hremoved, Request.tied_prepare hown hpast _ _⟩
    | some reason => exact ⟨hremoved, hown⟩
  | @reads req rules =>
    obtain ⟨hremoved, hown⟩ := h
    cases hget : t.store.get? req.id with
    | none => exact ⟨hremoved, hown⟩
    | some base => exact ⟨hremoved, Request.tied_prepare hown (hl.sound.live hget).2 _ _⟩
  | @writes req rules attempt m now hm =>
    obtain ⟨hremoved, hown, -⟩ := h
    have htold := t.told client m
    refine ⟨?_, Request.tied_afterWrite hl hown hm htold fun r hr => t.past_step _ hr⟩
    rw [Traffic.removedBy_of_removals (htold.removals_eq (by simp [hm])), hremoved]
  | removes hm =>
    obtain ⟨hown, hremoved⟩ := h
    exact Job.tied_afterRemoval hl hown hremoved hm (t.told client _)

/-- A job ties only what others leave alone. -/
theorem Job.Tied.frame (h : job.Tied t client)
    (hown : t'.ownedBy (.client client) = t.ownedBy (.client client))
    (hremoved : t'.removedBy client = t.removedBy client)
    (hpast : ∀ r, t.Past r → t'.Past r) : job.Tied t' client := by
  match job with
  | .removal _ _ none => exact ⟨hown.trans h.1, hremoved.trans h.2⟩
  | .removal _ _ (some (.error _)) => exact ⟨hown.trans h.1, hremoved.trans h.2⟩
  | .removal _ _ (some (.ok _)) => exact ⟨hown.trans h.1, hremoved.trans h.2.1, h.2.2⟩
  | .update req rules p =>
    refine ⟨hremoved.trans h.1, ?_⟩
    have htied := h.2
    match p with
    | .entering => exact hown.trans htied
    | .reading => exact hown.trans htied
    | .ready a => exact ⟨hown.trans htied.1, hpast _ htied.2.1, htied.2.2⟩
    | .writing a => exact ⟨hown.trans htied.1, hpast _ htied.2.1, htied.2.2⟩
    | .waiting current _ _ => exact ⟨hown.trans htied.1, hpast _ htied.2⟩
    | .rechecking current _ _ => exact ⟨hown.trans htied.1, hpast _ htied.2⟩
    | .finished (.error _) => exact hown.trans htied
    | .finished (.ok done) => exact ⟨hown.trans htied.1, htied.2⟩

/-- A write that finds the version that it presents finds its own base: no two committed states
    carry one version. -/
theorem Request.Tied.base_eq (hl : t.Ledger) {a : Attempt} (h : req.Tied t client (.writing a))
    {id : RecordId} {current : Record} (hcurrent : t.store.get? id = some current)
    (hversion : current.version = a.expected) : current = a.base := by
  obtain ⟨-, hbase, hexpected, -⟩ := h
  exact hl.sound.eq_of_version (hl.sound.live hcurrent).2 hbase (hversion.trans hexpected)

/-- A step of a job adds nothing to a chain, or a commit whose fields are the change of the
    last state. -/
theorem Job.Acts.chain (hl : t.Ledger) (hacts : job.Acts client t job' t')
    (h : job.Tied t client) (id : RecordId) :
    t'.chain id = t.chain id ∨ ∃ last next req,
      t'.chain id = t.chain id ++ [⟨.client client, next⟩] ∧
        (t.chain id).getLast? = some last ∧ job.request? = some req ∧ req.id = id ∧
        req.change.apply last.record.fields = .ok next.fields := by
  cases hacts with
  | enters | reads | polls | waits | rechecks | rests => exact .inl rfl
  | removes hm =>
    exact .inl (Traffic.chain_of_links ((t.told client _).links_eq (by rw [hm])) id)
  | @writes req rules attempt m now hm =>
    have htied := h.2
    have happly := htied.2.2.2
    have htold := t.told client m
    generalize t.step (.mutate client m) = t' at htold
    generalize (m.perform t.store).1 = answer at htold
    cases htold with
    | refused hlinks | removed _ hlinks => exact .inl (Traffic.chain_of_links hlinks id)
    | @written current next _ fields hdeed hlinks hremovals hcurrent hversion hid hfields =>
      have hchain := Traffic.chain_append hlinks id
      split at hchain
      next hnext =>
        have hsame : current = attempt.base :=
          htied.base_eq hl hcurrent (by rw [hversion, hm])
        have hreq : req.id = id := by
          rw [← hnext, hid, (hl.sound.live hcurrent).1, hm]
        have hlast := hl.last_live hcurrent
        rw [hm, hreq] at hlast
        obtain ⟨last, hgetLast, hrecord⟩ := Option.map_eq_some_iff.1 hlast
        rw [hm] at hdeed
        obtain ⟨-, rfl⟩ := Deed.write.inj hdeed
        refine .inr ⟨last, next, req, hchain, hgetLast, rfl, hreq, ?_⟩
        rw [hrecord, hsame, happly, hfields]
      next => exact .inl hchain

/-- Only a request that has ended well owns a state, and just the one that it returned. -/
theorem Job.Tied.owned (h : job.Tied t client) :
    t.ownedBy (.client client) = [] ∨ ∃ req rules done,
      job = .update req rules (.finished (.ok done)) ∧ done.record.id = req.id ∧
        t.ownedBy (.client client) = [⟨.client client, done.record⟩] := by
  match job with
  | .removal _ _ none => exact .inl h.1
  | .removal _ _ (some (.error _)) => exact .inl h.1
  | .removal _ _ (some (.ok _)) => exact .inl h.1
  | .update req rules p =>
    have htied := h.2
    match p with
    | .entering | .reading | .finished (.error _) => exact .inl htied
    | .ready _ | .writing _ | .waiting _ _ _ | .rechecking _ _ _ => exact .inl htied.1
    | .finished (.ok done) => exact .inr ⟨req, rules, done, rfl, htied.2, htied.1⟩

theorem Job.Acts.request? (hacts : job.Acts client t job' t') : job'.request? = job.request? := by
  cases hacts <;> rfl

/-- A step of a job is at most one write or removal of the traffic. -/
theorem Job.Acts.traffic (hacts : job.Acts client t job' t') :
    t' = t ∨ ∃ m, t' = t.step (.mutate client m) := by
  cases hacts with
  | enters | reads | polls | waits | rechecks | rests => exact .inl rfl
  | writes | removes => exact .inr ⟨_, rfl⟩

end Step

-- ============================================================================
-- Runs
-- ============================================================================

namespace System

variable {y y' : System ε}

theorem jobs_update (t : Traffic) (jobs : Nat → Option Job) (outside : ε) (i j : Nat) (job : Job) :
    (System.mk t (Function.update jobs j (some job)) outside).jobs i
      = if i = j then some job else jobs i :=
  Function.update_apply ..

theorem request?_update (t : Traffic) (jobs : Nat → Option Job) (outside : ε) (i j : Nat)
    (job : Job) :
    (System.mk t (Function.update jobs j (some job)) outside).request? i
      = if i = j then job.request? else (jobs i).bind Job.request? := by
  rw [request?, jobs_update]
  split <;> rfl

theorem tied_start (outside : ε) : (start outside).Tied where
  ledger := Traffic.ledger_start
  jobs j job h := by simp [start] at h
  vacant _ _ := ⟨rfl, rfl⟩
  follows _ := .nil

theorem Follows.mono (hrequest : ∀ j req, y.request? j = some req → y'.request? j = some req)
    {id : RecordId} {l m : Link} (h : y.Follows id l m) : y'.Follows id l m := by
  obtain ⟨j, req, howner, hreq, hrest⟩ := h
  exact ⟨j, req, howner, hrequest j req hreq, hrest⟩

theorem Tied.take (h : y.Tied) (j : Nat) {job : Job}
    (hjob : y.traffic.ownedBy (.client j) = [] → y.traffic.removedBy j = [] →
      job.Tied y.traffic j) : (y.take j job).Tied := by
  unfold System.take
  split
  next hj =>
    obtain ⟨hown, hremoved⟩ := h.vacant j hj
    refine ⟨h.ledger, fun i other hi => ?_, fun i hi => ?_, fun id => ?_⟩
    · rw [jobs_update] at hi
      split at hi
      next hij =>
        obtain rfl := Option.some.inj hi
        rw [hij]
        exact hjob hown hremoved
      next => exact h.jobs i other hi
    · rw [jobs_update] at hi
      split at hi
      next => contradiction
      next => exact h.vacant i hi
    · refine (h.follows id).imp fun l m => Follows.mono fun i req hreq => ?_
      have hij : i ≠ j := by
        rintro rfl
        rw [request?, hj] at hreq
        contradiction
      rw [request?_update, if_neg hij]
      exact hreq
  next => exact h

/-- A step of a creation. -/
theorem Tied.creation (h : y.Tied) {a : Traffic.Action} (ha : ∀ j m, a ≠ .mutate j m) :
    Tied { y with traffic := y.traffic.step a } := by
  have heffect := (y.traffic.step_moves a).effect
  refine ⟨h.ledger.step a, fun j job hjob => ?_, fun j hj => ?_, fun id => ?_⟩
  · exact (h.jobs j job hjob).frame (heffect.ownedBy_client (ha j)) (heffect.removedBy (ha j))
      fun r hr => y.traffic.past_step a hr
  · obtain ⟨hown, hremoved⟩ := h.vacant j hj
    exact ⟨(heffect.ownedBy_client (ha j)).trans hown, (heffect.removedBy (ha j)).trans hremoved⟩
  · rcases h.ledger.chain_creation ha id with hsame | ⟨l, hnew⟩
    · rw [hsame]
      exact h.follows id
    · rw [hnew]
      exact .singleton l

/-- A step of a job. -/
theorem Tied.work (h : y.Tied) {j : Nat} {job job' : Job} {t : Traffic} (outside : ε)
    (hjob : y.jobs j = some job) (hacts : job.Acts j y.traffic job' t) :
    Tied ⟨t, Function.update y.jobs j (some job'), outside⟩ := by
  have htied := h.jobs j job hjob
  have hrequest : ∀ i req, y.request? i = some req →
      System.request? ⟨t, Function.update y.jobs j (some job'), outside⟩ i = some req := by
    intro i req hreq
    by_cases hij : i = j
    · subst hij
      rw [request?, hjob] at hreq
      rw [request?_update, if_pos rfl, hacts.request?]
      exact hreq
    · rw [request?_update, if_neg hij]
      exact hreq
  have hframe : ∀ {i}, i ≠ j → t.ownedBy (.client i) = y.traffic.ownedBy (.client i) ∧
      t.removedBy i = y.traffic.removedBy i := by
    intro i hij
    rcases hacts.traffic with rfl | ⟨m, rfl⟩
    · exact ⟨rfl, rfl⟩
    · have hother : ∀ m', Traffic.Action.mutate j m ≠ .mutate i m' := by
        rintro m' heq
        exact hij (Traffic.Action.mutate.inj heq).1.symm
      have heffect := (y.traffic.step_moves (.mutate j m)).effect
      exact ⟨heffect.ownedBy_client hother, heffect.removedBy hother⟩
  have hpast : ∀ r, y.traffic.Past r → t.Past r := by
    intro r hr
    rcases hacts.traffic with rfl | ⟨m, rfl⟩
    · exact hr
    · exact y.traffic.past_step _ hr
  refine ⟨?_, fun i other hi => ?_, fun i hi => ?_, fun id => ?_⟩
  · rcases hacts.traffic with rfl | ⟨m, rfl⟩
    · exact h.ledger
    · exact h.ledger.step (.mutate j m)
  · rw [jobs_update] at hi
    split at hi
    next hij =>
      obtain rfl := Option.some.inj hi
      rw [hij]
      exact hacts.tied h.ledger htied
    next hij => exact (h.jobs i other hi).frame (hframe hij).1 (hframe hij).2 hpast
  · rw [jobs_update] at hi
    split at hi
    next => contradiction
    next hij =>
      obtain ⟨hown, hremoved⟩ := h.vacant i hi
      exact ⟨(hframe hij).1.trans hown, (hframe hij).2.trans hremoved⟩
  · have hfollows := (h.follows id).imp fun l m hlm => Follows.mono hrequest hlm
    rcases hacts.chain h.ledger htied id with
      hsame | ⟨last, next, req, hnext, hlast, hreq, hid, happly⟩
    · rw [hsame]
      exact hfollows
    · rw [hnext]
      refine hfollows.append (.singleton _) fun l hl m hm => ?_
      obtain rfl := Option.some.inj (hlast.symm.trans hl)
      obtain rfl := Option.some.inj hm
      refine ⟨j, req, rfl, hrequest j req ?_, hid, happly⟩
      rw [request?, hjob]
      exact hreq

theorem Tied.step (h : y.Tied) (watch : Watch ε) (e : Event ε) : (y.step watch e).Tied := by
  cases e with
  | ask k fields => exact h.creation (a := .ask k fields) (by simp)
  | advance k now => exact h.creation (a := .advance k now) (by simp)
  | request j req rules => exact h.take j fun hown hremoved => ⟨hremoved, hown⟩
  | removal j id expected => exact h.take j fun hown hremoved => ⟨hown, hremoved⟩
  | drift change => exact ⟨h.ledger, h.jobs, h.vacant, h.follows⟩
  | work j now =>
    cases hj : y.jobs j with
    | none =>
      rw [step_work_of_none hj]
      exact h
    | some job =>
      rw [step_work_of_some hj]
      exact h.work _ hj (job.next_acts watch j now y.traffic y.outside)

theorem tied_run (watch : Watch ε) (outside : ε) (events : List (Event ε)) :
    (run watch outside events).Tied := by
  have hsteps : ∀ (y : System ε), y.Tied → (events.foldl (·.step watch ·) y).Tied := by
    induction events with
    | nil => exact fun _ h => h
    | cons e rest ih => exact fun y h => ih _ (h.step watch e)
  exact hsteps _ (tied_start outside)

end System

end VersionedStore.Update
