/-
  VersionedStore.Proofs.Storm.Stock

  Where the stock of a product goes in a storm.

  The workers add to the stock on condition of the version that they have read.
  No two states of a record are at one version, so a write that takes place
  finds the state that it was worked out from (`Known`), and that state is the
  live one.  The new stock is then the old one with the amount added, as an
  exact sum, and is not below its minimum.  So at any time the stock is the
  initial one and an amount for each commit (`Stocked`), in whatever order the
  workers raced.

  The initial stock and the final one are both integers of 64 bits that are not
  negative.  This bounds the product of the amount and the number of commits,
  which the report computes without a check (`Report.Accounted`).
-/
import VersionedStore.Proofs.Catalog.Products
import VersionedStore.Proofs.Change.Adjustments
import VersionedStore.Proofs.Database.Seeding
import VersionedStore.Proofs.Storm.Interleaving

namespace VersionedStore

open Update

theorem Fields.insert_insert (fs : Fields) (name : String) (v w : Value) :
    (fs.insert name v).insert name w = fs.insert name w := by
  ext1 other
  rw [get?_insert, get?_insert, get?_insert]
  split <;> rfl

namespace Storm

-- ============================================================================
-- What a worker's update can do to the store
-- ============================================================================

theorem waitUntil_never (finish : Time) (turns : Nat) (w : World) :
    (World.watch.waitUntil .never finish turns w).1 = none ∧
      (World.watch.waitUntil .never finish turns w).2.store = w.store := by
  induction turns generalizing w with
  | zero => exact ⟨rfl, rfl⟩
  | succ turns ih =>
    have hturn : World.watch.waitUntil .never finish (turns + 1) w
        = World.watch.follow .never finish turns
            (Guard.never.turn finish false w.clock w.clock) w := by
      rw [Watch.waitUntil_succ]
      rfl
    have hnever : Guard.never.turn finish false w.clock w.clock
        = if finish ≤ w.clock then .over none else .pause (Guard.never.pause finish w.clock) :=
      rfl
    rw [hturn, hnever]
    split
    · exact ⟨rfl, rfl⟩
    · exact ih { w with clock := w.clock + Guard.never.pause finish w.clock }

/-- A worker waits to the end, and leaves the store alone. -/
theorem wait_never (d : Duration) (w : World) :
    (World.watch.wait .never d w).1 = .ok none ∧
      (World.watch.wait .never d w).2.store = w.store := by
  obtain ⟨hcut, hstore⟩ := waitUntil_never (w.clock + d.nanoseconds) (turnsFor d.nanoseconds) w
  exact ⟨congrArg Except.ok hcut, hstore⟩

/-- What one observation of a worker's update can be: the phase and the store after it. -/
inductive Task.Acts (task : Task) (rules : Rules) (s : Store) : Phase → Phase → Store → Prop where
  | enters : Acts task rules s .entering .reading s
  | reads : Acts task rules s .reading (task.request.afterRead rules (.ok (s.get? task.id))) s
  | polls {a : Attempt} : Acts task rules s (.ready a) (.writing a) s
  | writes {a : Attempt} {m : Mutation} {now : Instant}
      (hm : m = ⟨task.id, a.expected, .write now a.candidate⟩) :
      Acts task rules s (.writing a) (task.request.afterWrite rules a (m.perform s).1)
        (m.perform s).2
  | waits {current : Record} {made left : Nat} :
      Acts task rules s (.waiting current made left) (task.request.prepare rules current made left)
        s
  | rechecks {current : Record} {made left : Nat} :
      Acts task rules s (.rechecking current made left)
        (task.request.prepare rules current made left) s
  /-- The update is over. -/
  | rests {result : Result} : Acts task rules s (.finished result) (.finished result) s

theorem Task.next_acts (task : Task) (rules : Rules) (p : Phase) (w : World) :
    task.Acts rules w.store p (task.request.next rules World.surroundings p w).1
      (task.request.next rules World.surroundings p w).2.store := by
  cases p with
  | entering => exact .enters
  | reading => exact .reads
  | ready a => exact .polls
  | writing a => exact .writes rfl
  | waiting current made left =>
    obtain ⟨hcut, hstore⟩ := wait_never rules.policy.backoff w
    have hnext : task.request.next rules World.surroundings (.waiting current made left) w
        = (task.request.afterWait rules current made left
            (World.watch.wait .never rules.policy.backoff w).1,
          (World.watch.wait .never rules.policy.backoff w).2) := rfl
    rw [hnext, hcut]
    dsimp only
    rw [hstore]
    exact .waits
  | rechecking current made left => exact .rechecks
  | finished result => exact .rests

-- ============================================================================
-- The record in the course of a storm
-- ============================================================================

/-- No other state of the record is at the version of the base. -/
structure Known (s : Store) (id : RecordId) (base : Record) : Prop where
  version_le : base.version.raw.toNat ≤ s.lastVersion.toNat
  eq_live : ∀ r, s.get? id = some r → r.version = base.version → r = base

/-- The record holds the initial stock and an amount for each of a number of commits. -/
structure Stocked (task : Task) (first : Fields) (initial : Int) (commits : Nat) (s : Store)
    (r : Record) : Prop where
  live : s.get? task.id = some r
  id_eq : r.id = task.id
  version_le : r.version.raw.toNat ≤ s.lastVersion.toNat
  stock : ∃ n : Int64, r.fields = first.insert Catalog.stockField (.int n) ∧
    n.toInt = initial + task.delta.toInt * commits ∧ 0 ≤ n.toInt

/-- What a worker's update knows between two observations. -/
def Informed (task : Task) (rules : Rules) (s : Store) : Phase → Prop
  | .entering | .reading => True
  | .ready a | .writing a =>
    Known s task.id a.base ∧ a.expected = a.base.version ∧
      task.request.candidate rules a.base = .ok a.candidate
  | .waiting current _ _ | .rechecking current _ _ => Known s task.id current
  | .finished _ => False

/-- What one observation of a worker's update comes to: the phase and the store after it. -/
inductive Comes (task : Task) (rules : Rules) (first : Fields) (initial : Int) (commits : Nat)
    (s : Store) : Phase → Store → Prop where
  | onward {p : Phase} (hinformed : Informed task rules s p) :
      Comes task rules first initial commits s p s
  | rejected {id : RecordId} {reason : Violation} :
      Comes task rules first initial commits s (.finished (.error (.validationFailed id reason))) s
  | exhausted {report : ConflictReport} :
      Comes task rules first initial commits s (.finished (.error (.retryExhausted report))) s
  /-- The versions have run out. -/
  | spent {source : StoreError} (hnext : nextNumber? s.lastVersion = none) :
      Comes task rules first initial commits s (.finished (.error (.storage source))) s
  | committed {s' : Store} {r' : Record} {done : Committed}
      (hstocked : Stocked task first initial (commits + 1) s' r')
      (hknown : ∀ base, Known s task.id base → Known s' task.id base)
      (hnext : nextNumber? s.lastVersion ≠ none) :
      Comes task rules first initial commits s (.finished (.ok done)) s'

section Steps

variable {task : Task} {rules : Rules} {first : Fields} {initial : Int} {commits : Nat}
  {s s' : Store} {r : Record}

theorem Stocked.known (h : Stocked task first initial commits s r) : Known s task.id r where
  version_le := h.version_le
  eq_live q hq _ := by
    rw [h.live] at hq
    exact (Option.some.inj hq).symm

/-- What is known of an update stays known, whatever is written at a later version. -/
theorem Informed.mono {p : Phase} (h : Informed task rules s p)
    (hknown : ∀ base, Known s task.id base → Known s' task.id base) :
    Informed task rules s' p := by
  cases p with
  | entering | reading => trivial
  | ready a | writing a =>
    obtain ⟨hbase, hrest⟩ := h
    exact ⟨hknown _ hbase, hrest⟩
  | waiting current | rechecking current => exact hknown _ h
  | finished => contradiction

/-- An update that goes on from a record that it knows writes the sum next, or is refused. -/
theorem comes_prepare {base : Record} (hbase : Known s task.id base) (made left : Nat) :
    Comes task rules first initial commits s (task.request.prepare rules base made left) s := by
  unfold Request.prepare
  have hstale : task.request.stale? base = none := rfl
  rw [hstale]
  dsimp only
  split
  next reason _ => exact .rejected
  next fields hcandidate => exact .onward ⟨hbase, rfl, hcandidate⟩

theorem comes_afterMismatch {a : Attempt} {current : Record} (hcurrent : Known s task.id current) :
    Comes task rules first initial commits s (task.request.afterMismatch rules a current) s := by
  unfold Request.afterMismatch
  have hretryable : task.request.change.isRetryable = true := rfl
  rw [hretryable, Bool.not_true, if_neg Bool.false_ne_true]
  split
  next => exact .exhausted
  next left _ =>
    split
    · exact comes_prepare hcurrent _ _
    · exact .onward hcurrent

/-- A record of a storm after a commit that was worked out from it. -/
theorem Stocked.commit (h : Stocked task first initial commits s r)
    (hmin : rules.constraints.minimum? Catalog.stockField = some 0) {fields : Fields}
    (hcandidate : task.request.candidate rules r = .ok fields) (n : UInt64) (now : Instant) :
    Stocked task first initial (commits + 1)
      (Store.enter (r.successor now fields ⟨n⟩) { s with lastVersion := n }).2
      (r.successor now fields ⟨n⟩) := by
  obtain ⟨happly, hvalid⟩ := Request.candidate_eq_ok_iff.1 hcandidate
  obtain ⟨stock, hfields, hstock, -⟩ := h.stock
  have hget : r.fields.get? Catalog.stockField = some (.int stock) := by
    rw [hfields, Fields.get?_insert, if_pos rfl]
  obtain ⟨sum, hsum, rfl⟩ := Adjustment.apply_eq_ok hget happly
  refine ⟨?_, h.id_eq, Nat.le_refl _, sum, ?_, ?_, ?_⟩
  · rw [Store.get?_enter, Record.successor, if_pos h.id_eq]
  · change r.fields.insert Catalog.stockField (.int sum) = _
    rw [hfields, Fields.insert_insert]
  · rw [hsum, hstock, Int.natCast_succ, Int.mul_add, Int.mul_one, Int.add_assoc]
  · have hget' : (r.fields.insert Catalog.stockField (.int sum)).get? Catalog.stockField
        = some (.int sum) := by
      rw [Fields.get?_insert, if_pos rfl]
    exact Int64.le_iff_toInt_le.1 (Constraints.minimum_le hvalid hmin hget')

/-- What is known before a write at a later version is known after it. -/
theorem Known.enter {id : RecordId} {base next : Record} {n : UInt64} (h : Known s id base)
    (hversion : next.version = ⟨n⟩) (hid : next.id = id)
    (hnext : nextNumber? s.lastVersion = some n) :
    Known (Store.enter next { s with lastVersion := n }).2 id base := by
  have hn := Store.toNat_nextNumber? hnext
  have hle := h.version_le
  refine ⟨?_, fun r hr hsame => ?_⟩
  · change base.version.raw.toNat ≤ n.toNat
    omega
  · rw [Store.get?_enter, if_pos hid] at hr
    obtain rfl := Option.some.inj hr
    rw [← hsame, hversion] at hle
    dsimp only at hle
    omega

theorem Task.Acts.comes {p p' : Phase} (hacts : task.Acts rules s p p' s')
    (hp : Informed task rules s p) (h : Stocked task first initial commits s r)
    (hmin : rules.constraints.minimum? Catalog.stockField = some 0) :
    Comes task rules first initial commits s p' s' := by
  cases hacts with
  | enters => exact .onward trivial
  | reads =>
    rw [h.live]
    exact comes_prepare h.known _ _
  | polls => exact .onward hp
  | waits | rechecks => exact comes_prepare hp _ _
  | rests => contradiction
  | @writes a m now hm =>
    obtain ⟨hbase, hexpected, hcandidate⟩ := hp
    have houtcome := m.perform_outcome s
    subst hm
    generalize (Mutation.perform ⟨task.id, a.expected, .write now a.candidate⟩ s).1 = answer,
      (Mutation.perform ⟨task.id, a.expected, .write now a.candidate⟩ s).2 = t at houtcome ⊢
    have hlive : ∀ {q : Record}, s.get? task.id = some q → q = r := by
      intro q hq
      rw [h.live] at hq
      exact (Option.some.inj hq).symm
    cases houtcome with
    | missing hget =>
      rw [h.live] at hget
      contradiction
    | stale hget =>
      obtain rfl := hlive hget
      exact comes_afterMismatch h.known
    | spent _ _ _ hnext => exact .spent hnext
    | @written current now' fields n hget hversion hdeed hnext =>
      obtain ⟨rfl, rfl⟩ := Deed.write.inj hdeed
      -- The state that was read is the live one, since no other is at its version.
      obtain rfl := hlive hget
      obtain rfl := hbase.eq_live current hget (hversion.trans hexpected)
      refine .committed (h.commit hmin hcandidate n now) (fun base hknown => ?_) ?_
      · exact hknown.enter rfl h.id_eq hnext
      · rw [hnext]
        exact Option.some_ne_none n
    | removed _ _ hdeed => contradiction

end Steps

-- ============================================================================
-- All workers together
-- ============================================================================

/-- A move by which nobody else acts on the store. -/
def Move.IsQuiet : Move World → Prop
  | .work _ => True
  | .drift change => ∀ w, (change w).store = w.store

theorem Move.IsWork.isQuiet {m : Move World} (h : m.IsWork) : m.IsQuiet := by
  cases m with
  | work => trivial
  | drift => contradiction

/-- What holds in the course of a storm. -/
structure Scene.Underway (task : Task) (rules : Rules) (first : Fields) (initial : Int)
    (y : Scene World) : Prop where
  stocked : ∃ r, Stocked task first initial y.total.committed y.state.store r
  informed : ∀ d ∈ y.desks, ∀ p, d.worker.current = some p →
    Informed task rules y.state.store p
  /-- Updates fail only for want of a version. -/
  failed : y.total.failed ≠ 0 → nextNumber? y.state.store.lastVersion = none

section Course

variable {task : Task} {rules : Rules} {first : Fields} {initial : Int} {y : Scene World}

/-- What one observation of an update on a desk comes to. -/
theorem comes_next {seen : List Sight} {commits : Nat} {w : World} {r : Record} {p p' : Phase}
    {t : Transcribed World}
    (hnext : task.request.next rules World.surroundings.transcribed p ⟨w, seen⟩ = (p', t))
    (hp : Informed task rules w.store p) (h : Stocked task first initial commits w.store r)
    (hmin : rules.constraints.minimum? Catalog.stockField = some 0) :
    Comes task rules first initial commits w.store p' t.inner.store := by
  obtain ⟨hphase, hinner⟩ :=
    task.request.next_projects rules (projects_transcribed World.surroundings) p ⟨w, seen⟩
  rw [hnext] at hphase hinner
  have hacts := task.next_acts rules p w
  rw [← hphase, ← hinner] at hacts
  exact hacts.comes hp h hmin

/-- A desk in place of another is informed as the others are if no write takes from what they
    know. -/
theorem Scene.Underway.informed_set (h : y.Underway task rules first initial) {k : Nat} {d' : Desk}
    {s : Store} (hknown : ∀ base, Known y.state.store task.id base → Known s task.id base)
    (hd' : ∀ p, d'.worker.current = some p → Informed task rules s p) :
    ∀ e ∈ y.desks.set k d', ∀ p, e.worker.current = some p → Informed task rules s p := by
  intro e he p hp
  rcases List.mem_or_eq_of_mem_set he with hold | rfl
  · exact (h.informed e hold p hp).mono hknown
  · exact hd' p hp

/-- A step of a desk that neither commits nor fails. -/
theorem Scene.Underway.quiet (h : y.Underway task rules first initial) {k : Nat} {d d' : Desk}
    {w : World} (hk : y.desks[k]? = some d)
    (hcommitted : d'.worker.tally.committed = d.worker.tally.committed)
    (hfailed : d'.worker.tally.failed = d.worker.tally.failed)
    (hstore : w.store = y.state.store)
    (hd' : ∀ p, d'.worker.current = some p → Informed task rules y.state.store p) :
    Scene.Underway task rules first initial ⟨w, y.desks.set k d'⟩ := by
  have hcommits := y.total_set (f := Tally.committed) (fun _ _ => rfl) rfl hk d' w
  have hfails := y.total_set (f := Tally.failed) (fun _ _ => rfl) rfl hk d' w
  rw [hcommitted, Nat.add_right_cancel_iff] at hcommits
  rw [hfailed, Nat.add_right_cancel_iff] at hfails
  constructor
  · rw [hcommits, hstore]
    exact h.stocked
  · rw [hstore]
    exact h.informed_set (fun _ => id) hd'
  · rw [hfails, hstore]
    exact h.failed

/-- The end of an update. -/
theorem Scene.Underway.ends (h : y.Underway task rules first initial) {k : Nat} {d d' : Desk}
    {w : World} {result : Result} (hk : y.desks[k]? = some d)
    (hworker : d'.worker = ⟨d.worker.tally.count result, d.worker.left, none⟩)
    (hcomes : Comes task rules first initial y.total.committed y.state.store (.finished result)
      w.store) :
    Scene.Underway task rules first initial ⟨w, y.desks.set k d'⟩ := by
  have hcommits := y.total_set (f := Tally.committed) (fun _ _ => rfl) rfl hk d' w
  have hfails := y.total_set (f := Tally.failed) (fun _ _ => rfl) rfl hk d' w
  have hidle : ∀ {s : Store} p, d'.worker.current = some p → Informed task rules s p := by
    intro s p hp
    rw [hworker] at hp
    contradiction
  have htally : d'.worker.tally = d.worker.tally.count result := by rw [hworker]
  generalize hs : w.store = s at hcomes
  cases hcomes with
  | onward hfinished => contradiction
  | rejected | exhausted => exact h.quiet hk (by rw [htally]; rfl) (by rw [htally]; rfl) hs hidle
  | @spent source hnext =>
    have hcommitted : d'.worker.tally.committed = d.worker.tally.committed := by
      rw [htally]
      rfl
    rw [hcommitted, Nat.add_right_cancel_iff] at hcommits
    constructor
    · rw [hcommits, hs]
      exact h.stocked
    · rw [hs]
      exact h.informed_set (fun _ => id) hidle
    · intro _
      rw [hs]
      exact hnext
  | @committed _ r' done hstocked hknown hnext =>
    have hcommitted : d'.worker.tally.committed = d.worker.tally.committed + 1 := by
      rw [htally]
      rfl
    have hfailed : d'.worker.tally.failed = d.worker.tally.failed := by
      rw [htally]
      rfl
    rw [hcommitted] at hcommits
    rw [hfailed, Nat.add_right_cancel_iff] at hfails
    have hmore : (Scene.total ⟨w, y.desks.set k d'⟩).committed = y.total.committed + 1 := by
      omega
    constructor
    · rw [hmore, hs]
      exact ⟨r', hstocked⟩
    · rw [hs]
      exact h.informed_set hknown hidle
    · intro hfail
      rw [hfails] at hfail
      exact absurd (h.failed hfail) hnext

theorem Scene.Underway.work (h : y.Underway task rules first initial)
    (hmin : rules.constraints.minimum? Catalog.stockField = some 0) {k : Nat} {d d' : Desk}
    {w : World} (hk : y.desks[k]? = some d)
    (htakes : d.Takes ⟨rules, World.surroundings⟩ task y.state d' w) :
    Scene.Underway task rules first initial ⟨w, y.desks.set k d'⟩ := by
  obtain ⟨r, hr⟩ := h.stocked
  have hinformed := h.informed d (List.mem_of_getElem? hk)
  cases htakes with
  | rests hcurrent => exact h.quiet hk rfl rfl rfl hinformed
  | starts hcurrent =>
    refine h.quiet hk rfl rfl rfl fun p hp => ?_
    obtain rfl := Option.some.inj hp
    trivial
  | @goesOn _ p' t hcurrent hnext hresult =>
    have hcomes := comes_next hnext (hinformed _ hcurrent) hr hmin
    generalize hs : t.inner.store = s at hcomes
    cases hcomes with
    | onward hp' =>
      refine h.quiet hk rfl rfl hs fun p hp => ?_
      obtain rfl := Option.some.inj hp
      exact hp'
    | rejected | exhausted | spent | committed => contradiction
  | ends hcurrent hnext =>
    exact h.ends hk rfl (comes_next hnext (hinformed _ hcurrent) hr hmin)

theorem Scene.Underway.step (h : y.Underway task rules first initial)
    (hmin : rules.constraints.minimum? Catalog.stockField = some 0) {m : Move World}
    (hm : m.IsQuiet) :
    (y.step ⟨rules, World.surroundings⟩ task m).Underway task rules first initial := by
  cases m with
  | drift change =>
    have hstore : (change y.state).store = y.state.store := hm y.state
    constructor
    · rw [Scene.step, hstore]
      exact h.stocked
    · rw [Scene.step, hstore]
      exact h.informed
    · rw [Scene.step, hstore]
      exact h.failed
  | work k =>
    cases hk : y.desks[k]? with
    | none =>
      simp only [Scene.step, hk]
      exact h
    | some d =>
      rw [Scene.step_work _ _ hk]
      exact h.work hmin hk (d.step_takes _ task y.state)

/-- A storm on a record that is live, and whose stock is not negative. -/
theorem Scene.underway_start {s : World} {target : Record} {stock : Int64}
    (htarget : s.store.Holds target)
    (hstock : target.fields.get? Catalog.stockField = some (.int stock)) (hnonneg : 0 ≤ stock)
    (delta : Int64) (workers rounds : Nat) :
    (Scene.start workers rounds s).Underway ⟨target.id, delta⟩ rules target.fields stock.toInt := by
  have hcommitted := Scene.total_start (f := Tally.committed) (fun _ _ => rfl) rfl workers rounds s
  have hfailed := Scene.total_start (f := Tally.failed) (fun _ _ => rfl) rfl workers rounds s
  have hfields : target.fields = target.fields.insert Catalog.stockField (.int stock) := by
    ext1 name
    rw [Fields.get?_insert]
    split
    next hname => rw [← hname, hstock]
    next => rfl
  constructor
  · rw [hcommitted]
    refine ⟨target, htarget.live, rfl, htarget.version_le, stock, hfields, ?_, ?_⟩
    · rw [Int.natCast_zero, Int.mul_zero, Int.add_zero]
    · exact Int64.le_iff_toInt_le.1 hnonneg
  · intro d hd p hp
    obtain rfl := List.eq_of_mem_replicate hd
    contradiction
  · rw [hfailed]
    exact fun hne => absurd rfl hne

theorem Scene.underway_run (h : y.Underway task rules first initial)
    (hmin : rules.constraints.minimum? Catalog.stockField = some 0) {moves : List (Move World)}
    (hquiet : ∀ m ∈ moves, m.IsQuiet) :
    (y.run ⟨rules, World.surroundings⟩ task moves).Underway task rules first initial :=
  run_invariant (fun _ m hm h => h.step hmin (hquiet m hm)) h

end Course

-- ============================================================================
-- The report
-- ============================================================================

/-- The figures of a report are consistent, and computing them has overflowed nowhere. -/
structure Report.Accounted (report : Report) (delta : Int64) (updates : Nat) (s : Store) :
    Prop where
  updates_eq : report.total.committed + report.total.exhausted + report.total.rejected
    + report.total.failed = updates
  updates_lt : updates < UInt64.size
  final_eq : report.finalStock.toInt
    = report.initialStock.toInt + delta.toInt * report.total.committed
  final_nonneg : 0 ≤ report.finalStock.toInt
  lost_eq : report.lostUpdates = 0
  /-- Updates have failed only if the versions have run out. -/
  failed_eq : report.total.failed = 0 ∨ nextNumber? s.lastVersion = none
  /-- How the lost updates are computed. -/
  lost_def : report.lostUpdates
    = report.initialStock + delta * Int64.ofNat report.total.committed - report.finalStock
  product_eq : (delta * Int64.ofNat report.total.committed).toInt
    = delta.toInt * report.total.committed
  product_exact : (delta * Int64.ofNat report.total.committed).toInt
    = delta.toInt * (Int64.ofNat report.total.committed).toInt
  sum_exact : (report.initialStock + delta * Int64.ofNat report.total.committed).toInt
    = report.initialStock.toInt + (delta * Int64.ofNat report.total.committed).toInt
  difference_exact :
    (report.initialStock + delta * Int64.ofNat report.total.committed
        - report.finalStock).toInt
      = (report.initialStock + delta * Int64.ofNat report.total.committed).toInt
        - report.finalStock.toInt

theorem bmod_eq_self {n : Int} (hlow : -2 ^ 63 ≤ n) (hhigh : n < 2 ^ 63) : n.bmod (2 ^ 64) = n :=
  Int.bmod_eq_of_le (by omega) (by omega)

/-- An amount times a number of commits is exact if it leads from one stock to another: an amount
    other than zero keeps the number of commits within the range of the difference. -/
theorem toInt_mul_ofNat {before after delta : Int64} {commits : Nat}
    (hbefore : 0 ≤ before.toInt) (hafter : 0 ≤ after.toInt)
    (h : after.toInt = before.toInt + delta.toInt * commits) :
    (delta * Int64.ofNat commits).toInt = delta.toInt * commits ∧
      (delta * Int64.ofNat commits).toInt = delta.toInt * (Int64.ofNat commits).toInt := by
  have hbefore' := before.toInt_lt
  have hafter' := after.toInt_lt
  by_cases hzero : delta.toInt = 0
  · rw [Int64.toInt_mul, hzero, Int.zero_mul, Int.zero_mul]
    exact ⟨rfl, rfl⟩
  · have hpos : 0 < delta.toInt.natAbs := Int.natAbs_pos.2 hzero
    have hle : commits ≤ (delta.toInt * commits).natAbs := by
      rw [Int.natAbs_mul, Int.natAbs_natCast]
      exact Nat.le_mul_of_pos_left commits hpos
    have hcommits : commits < 2 ^ 63 := by omega
    have hexact : (Int64.ofNat commits).toInt = commits := Int64.toInt_ofNat_of_lt hcommits
    have hproduct : (delta * Int64.ofNat commits).toInt = delta.toInt * commits := by
      rw [Int64.toInt_mul, hexact]
      exact bmod_eq_self (by omega) (by omega)
    exact ⟨hproduct, by rw [hproduct, hexact]⟩

/-- A report is consistent if the final stock is the initial one and the amount for each commit. -/
theorem accounted_of {before after : Product} {task : Task} {total : Tally} {updates : Nat}
    {s : Store} (hupdates : total.updates = updates) (hrange : updates < UInt64.size)
    (hbefore : 0 ≤ before.stock.toInt) (hafter : 0 ≤ after.stock.toInt)
    (hstock : after.stock.toInt = before.stock.toInt + task.delta.toInt * total.committed)
    (hfailed : total.failed ≠ 0 → nextNumber? s.lastVersion = none) :
    (Report.of before after task total).Accounted task.delta updates s := by
  obtain ⟨hproduct, hexact⟩ := toInt_mul_ofNat hbefore hafter hstock
  have hbefore' := before.stock.toInt_lt
  have hafter' := after.stock.toInt_lt
  have hsum : (before.stock + task.delta * Int64.ofNat total.committed).toInt
      = before.stock.toInt + (task.delta * Int64.ofNat total.committed).toInt := by
    rw [Int64.toInt_add]
    exact bmod_eq_self (by omega) (by omega)
  have hdue : before.stock + task.delta * Int64.ofNat total.committed = after.stock := by
    rw [← Int64.toInt_inj, hsum, hproduct, hstock]
  have hlost : before.stock + task.delta * Int64.ofNat total.committed - after.stock = 0 := by
    rw [hdue, Int64.sub_self]
  exact {
    updates_eq := hupdates
    updates_lt := hrange
    final_eq := hstock
    final_nonneg := hafter
    lost_eq := hlost
    failed_eq := by
      by_cases hzero : total.failed = 0
      · exact .inl hzero
      · exact .inr (hfailed hzero)
    lost_def := rfl
    product_eq := hproduct
    product_exact := hexact
    sum_exact := hsum
    difference_exact := by
      change (before.stock + task.delta * Int64.ofNat total.committed - after.stock).toInt
        = (before.stock + task.delta * Int64.ofNat total.committed).toInt - after.stock.toInt
      rw [hlost, hdue, Int.sub_self]
      rfl }

end Storm

-- ============================================================================
-- Storms of the command line
-- ============================================================================

namespace Scenario

theorem product_eq_ok {r : Record} {p : Product} (h : product r = .ok p) :
    Product.ofRecord r = .ok p := by
  unfold product at h
  split at h
  next q hq =>
    obtain rfl := Except.ok.inj h
    exact hq
  next => contradiction

theorem mem_of_pick {records : List Record} {place : Nat} {r : Record}
    (h : pick records place = .ok r) : r ∈ records := by
  unfold pick at h
  split at h
  next => contradiction
  next i =>
    split at h
    next q hq =>
      obtain rfl := Except.ok.inj h
      exact List.mem_of_getElem? hq
    next => contradiction

open Storm CommandLine

variable {inv : Invocation} {content : Except FileError ByteArray} {db : Database World}
  {place workers rounds : Nat} {delta : Int64} {w w' : World}

/-- However the steps of the workers interleave, the report of a storm is consistent. -/
theorem accounted_of_runStormBy (hopen : inv.database content World.surroundings = .ok db)
    (hrange : workers * rounds * db.rules.policy.maxAttempts.toNat < UInt64.size)
    {moves : List (Move World)} (hquiet : ∀ m ∈ moves, m.IsQuiet) {report : Report}
    {y : Scene World}
    (hrun : (runStormBy db place workers rounds delta moves).run w = (.ok (report, y), w'))
    (hdone : y.isDone = true) : report.Accounted delta (workers * rounds) w'.store := by
  obtain ⟨c, hconfig, hminimum⟩ := inv.exists_config hopen
  obtain ⟨rfl, hattempts⟩ := Database.ofConfig_eq_ok hconfig
  have hmin := Config.minimum?_constraints hminimum
  obtain ⟨records, seeded, target, before, last, after, hseed, hpick, hbefore, hy, hget, hafter,
    rfl⟩ := stormed_of_runStormBy hrun
  obtain ⟨-, hmade⟩ := Database.holds_of_mapM hseed
  obtain ⟨hholds, hadmits⟩ := hmade target (mem_of_pick hpick)
  have hinitial := (Product.ofRecord_eq_ok_iff.1 (product_eq_ok hbefore)).stock
  have hnonneg : 0 ≤ before.stock := Constraints.minimum_le hadmits hmin hinitial
  have hsound : y.Sound ⟨c.rules, World.surroundings⟩ ⟨target.id, delta⟩ workers rounds := by
    rw [hy]
    exact Scene.sound_run seeded moves
  have hunderway : y.Underway ⟨target.id, delta⟩ c.rules target.fields before.stock.toInt := by
    rw [hy]
    exact Scene.underway_run (Scene.underway_start hholds hinitial hnonneg delta workers rounds)
      hmin hquiet
  have hread : (Database.get ⟨c.rules, World.surroundings⟩ target.id).run y.state
      = (.ok (y.state.store.get? target.id), y.state) := rfl
  obtain ⟨r, hr⟩ := hunderway.stocked
  rw [hread, hr.live] at hget
  obtain ⟨hlast, rfl⟩ := Prod.mk.inj hget
  obtain rfl := Option.some.inj (Except.ok.inj hlast)
  obtain ⟨final, hfields, hstock, hfinal⟩ := hr.stock
  have hafter' := (Product.ofRecord_eq_ok_iff.1 (product_eq_ok hafter)).stock
  rw [hfields, Fields.get?_insert, if_pos rfl] at hafter'
  obtain rfl := Value.int.inj (Option.some.inj hafter')
  have hupdates : workers * rounds < UInt64.size :=
    Nat.lt_of_le_of_lt (Nat.le_mul_of_pos_right _ hattempts) hrange
  exact accounted_of (hsound.updates_total hdone) hupdates (Int64.le_iff_toInt_le.1 hnonneg)
    hfinal hstock hunderway.failed

/-- The report of a storm on a database that a command line opened is consistent, however the
    steps of the workers interleave while nobody else acts on the store.  So is the report of a
    storm in which each worker works to its end before the next begins. -/
theorem storm_accounted (hopen : inv.database content World.surroundings = .ok db)
    (hrange : workers * rounds * db.rules.policy.maxAttempts.toNat < UInt64.size) :
    (∀ (moves : List (Move World)) (report : Report) (y : Scene World) (w w' : World),
        (∀ m ∈ moves, m.IsQuiet) →
        (runStormBy db place workers rounds delta moves).run w = (.ok (report, y), w') →
        y.isDone = true → report.Accounted delta (workers * rounds) w'.store) ∧
      ∀ (report : Report) (w w' : World),
        (runStorm db place workers rounds delta).run w = (.ok report, w') →
        report.Accounted delta (workers * rounds) w'.store := by
  constructor
  · intro moves report y w w' hquiet hrun hdone
    exact accounted_of_runStormBy hopen hrange hquiet hrun hdone
  · intro report w w' hrun
    obtain ⟨moves, y, hwork, hdone, hrunBy⟩ := exists_runStormBy hrun
    exact accounted_of_runStormBy hopen hrange (fun m hm => (hwork m hm).isQuiet) hrunBy hdone

/-- Two workers abreast take all that is left of a product: one of them has it, and the other is
    rejected. -/
theorem storm_accounted_abreast :
    (⟨none, none, .storm 4 2 1 (-50)⟩ : Invocation).database (.error .absent)
        World.surroundings = .ok ⟨productRules, World.surroundings⟩ ∧
      2 * 1 * productRules.policy.maxAttempts.toNat < UInt64.size ∧
      ∃ report y w',
        (runStormBy ⟨productRules, World.surroundings⟩ 4 2 1 (-50) abreast).run default
          = (.ok (report, y), w') ∧
        report.total.committed = 1 ∧ report.total.rejected = 1 ∧
        report.Accounted (-50) (2 * 1) w'.store := by
  have hopen : (⟨none, none, .storm 4 2 1 (-50)⟩ : Invocation).database (.error .absent)
      World.surroundings = .ok ⟨productRules, World.surroundings⟩ := rfl
  have hrange : 2 * 1 * productRules.policy.maxAttempts.toNat < UInt64.size := by decide
  have hrun : ((runStormBy ⟨productRules, World.surroundings⟩ 4 2 1 (-50) abreast).run
      default).1.toOption.any (fun r => r.2.isDone && decide (r.1.total = ⟨1, 0, 1, 0, 1⟩))
      = true := by decide +kernel
  obtain ⟨⟨report, y⟩, w', hrun, hall⟩ := exists_eq_ok hrun
  rw [Bool.and_eq_true, decide_eq_true_iff] at hall
  obtain ⟨hdone, htotal⟩ := hall
  have hquiet : ∀ m ∈ abreast, m.IsQuiet := by
    intro m hm
    obtain ⟨turn, hturn, hm⟩ := List.mem_flatten.1 hm
    obtain rfl := List.eq_of_mem_replicate hturn
    rcases List.mem_pair.1 hm with rfl | rfl <;> trivial
  exact ⟨hopen, hrange, report, y, w', hrun, congrArg Tally.committed htotal,
    congrArg Tally.rejected htotal,
    (storm_accounted hopen hrange).1 abreast report y default w' hquiet hrun hdone⟩

end Scenario

end VersionedStore
