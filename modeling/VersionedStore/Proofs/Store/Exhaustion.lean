/-
  VersionedStore.Proofs.Store.Exhaustion

  What a store does when a counter comes to the end of its range.

  A counter hands out its next number or refuses, and a refusal comes before the
  records are touched; so a call that fails has done nothing, apart from a
  creation that had its id already.  Calls that need no new version do not look
  at the counters at all.  Once there is no version left there is none for good,
  and from then on nothing is committed but what had its version before.
-/
import VersionedStore.Proofs.Store.Replay
import VersionedStore.Proofs.Store.Tokens

namespace VersionedStore

namespace Store

/-- The counter has handed out the last number of its range. -/
def IsSpent (last : UInt64) : Prop :=
  last.toNat = UInt64.size - 1

variable {s : Store}

theorem isSpent_iff {last : UInt64} : IsSpent last ↔ nextNumber? last = none :=
  nextNumber?_eq_none_iff.symm

theorem not_isSpent {last n : UInt64} (h : nextNumber? last = some n) : ¬IsSpent last := by
  rw [isSpent_iff, h]
  exact Option.some_ne_none n

theorem le_nextNumber? {last n : UInt64} (h : nextNumber? last = some n) : last ≤ n := by
  rw [UInt64.le_iff_toNat_le, toNat_nextNumber? h]
  exact Nat.le_succ _

-- ============================================================================
-- Calls
-- ============================================================================

/-- The failure that an answer reports, if it reports one. -/
def Answer.failure? : Answer → Option StoreError
  | .created (.error e) | .mutated (.error e) | .found (.error e) | .listed (.error e) => some e
  | .created (.ok _) | .mutated (.ok _) | .found (.ok _) | .listed (.ok _) => none

/-- Whether the call is a creation. -/
def Call.isCreation : Call → Bool
  | .create .. => true
  | .mutate _ | .read _ | .list => false

/-- Whether the call needs no new version: it looks, removes, or writes to a record that is not
    there or at another version. -/
def Call.IsFree (s : Store) : Call → Prop
  | .create .. => False
  | .read _ | .list => True
  | .mutate ⟨id, expected, .write ..⟩ =>
    ∀ current, s.get? id = some current → current.version ≠ expected
  | .mutate ⟨_, _, .delete⟩ => True

/-- The store with other numbers in its counters. -/
def recount (s : Store) (lastId lastVersion : UInt64) : Store :=
  ⟨s.records, lastVersion, lastId⟩

theorem mutate_eq {m : Mutation} {answer : Except StoreError WriteOutcome} {s' : Store}
    (h : m.Outcome s answer s') : (Call.mutate m).perform s = (.mutated answer, s') := by
  have hperform : (Call.mutate m).perform s = (.mutated (m.perform s).1, (m.perform s).2) := rfl
  rw [hperform, h.perform_eq]

theorem create_eq (now : Instant) (fields : Fields) (s : Store) :
    (Call.create now fields).perform s
      = (.created (Store.create now fields s).1, (Store.create now fields s).2) :=
  rfl

/-- A creation fails where a counter has run out, the ids being asked for first. -/
theorem create_eq_error_iff {now : Instant} {fields : Fields} {e : StoreError} :
    (Store.create now fields s).1 = .error e ↔
      e = .exhausted idCounter ∧ IsSpent s.lastId ∨
        e = .exhausted versionCounter ∧ ¬IsSpent s.lastId ∧ IsSpent s.lastVersion := by
  have hcreated := create_created now fields s
  generalize (Store.create now fields s).1 = answer,
    (Store.create now fields s).2 = s' at hcreated
  cases hcreated with
  | unnamed hid =>
    have hspent := isSpent_iff.2 hid
    simp [hspent, eq_comm]
  | unstamped hid hversion =>
    have hleft := not_isSpent hid
    have hspent := isSpent_iff.2 hversion
    simp [hleft, hspent, eq_comm]
  | entered hid hversion => simp [not_isSpent hid, not_isSpent hversion]

/-- A creation that had its id but found no version left has used the id up, and nothing else. -/
theorem create_unstamped {now : Instant} {fields : Fields}
    (h : (Store.create now fields s).1 = .error (.exhausted versionCounter)) :
    (Store.create now fields s).2.records = s.records ∧
      (Store.create now fields s).2.lastVersion = s.lastVersion ∧
      (Store.create now fields s).2.lastId.toNat = s.lastId.toNat + 1 := by
  have hcreated := create_created now fields s
  generalize (Store.create now fields s).1 = answer,
    (Store.create now fields s).2 = s' at hcreated h
  cases hcreated with
  | unnamed => exact absurd (Except.error.inj h) (by decide)
  | unstamped hid => exact ⟨rfl, rfl, toNat_nextNumber? hid⟩
  | entered => contradiction

/-- A call that fails leaves the store as it was, unless it is a creation that had its id. -/
theorem perform_of_failure {c : Call} {e : StoreError} (h : (c.perform s).1.failure? = some e)
    (hother : ¬(c.isCreation = true ∧ e = .exhausted versionCounter)) : (c.perform s).2 = s := by
  cases c with
  | create now fields =>
    have hcreated := create_created now fields s
    rw [create_eq] at h ⊢
    generalize (Store.create now fields s).1 = answer,
      (Store.create now fields s).2 = s' at hcreated h
    cases hcreated with
    | unnamed => rfl
    | unstamped => exact absurd ⟨rfl, (Option.some.inj h).symm⟩ hother
    | entered => contradiction
  | mutate m =>
    obtain ⟨answer, s', houtcome⟩ := m.exists_outcome s
    rw [mutate_eq houtcome] at h ⊢
    cases houtcome with
    | spent => rfl
    | missing | stale | written | removed => contradiction
  | read | list => rfl

/-- The counters never go back. -/
theorem perform_le (c : Call) (s : Store) :
    s.lastVersion ≤ (c.perform s).2.lastVersion ∧ s.lastId ≤ (c.perform s).2.lastId := by
  have hsame : ∀ n : UInt64, n ≤ n := fun _ => UInt64.le_refl _
  cases c with
  | create now fields =>
    have hcreated := create_created now fields s
    rw [create_eq]
    generalize (Store.create now fields s).1 = answer,
      (Store.create now fields s).2 = s' at hcreated
    cases hcreated with
    | unnamed => exact ⟨hsame _, hsame _⟩
    | unstamped hid => exact ⟨hsame _, le_nextNumber? hid⟩
    | entered hid hversion => exact ⟨le_nextNumber? hversion, le_nextNumber? hid⟩
  | mutate m =>
    obtain ⟨answer, s', houtcome⟩ := m.exists_outcome s
    rw [mutate_eq houtcome]
    cases houtcome with
    | written hget hversion hdeed hnext => exact ⟨le_nextNumber? hnext, hsame _⟩
    | missing | stale | spent | removed => exact ⟨hsame _, hsame _⟩
  | read | list => exact ⟨hsame _, hsame _⟩

/-- A write at the current version takes place, with the next version, unless there is none
    left. -/
theorem write_current {id : RecordId} {current : Record} (hget : s.get? id = some current)
    (now : Instant) (fields : Fields) :
    IsSpent s.lastVersion ∧
        (Store.write now id current.version fields s).1 = .error (.exhausted versionCounter) ∨
      ¬IsSpent s.lastVersion ∧ ∃ r,
        (Store.write now id current.version fields s).1 = .ok (.committed r) ∧
          r.version.raw.toNat = s.lastVersion.toNat + 1 := by
  have hwrite : Store.write now id current.version fields s
      = (⟨id, current.version, .write now fields⟩ : Mutation).perform s := rfl
  rw [hwrite]
  cases hnext : nextNumber? s.lastVersion with
  | none =>
    refine .inl ⟨isSpent_iff.2 hnext, ?_⟩
    rw [(Mutation.Outcome.spent hget rfl rfl hnext).perform_eq]
  | some n =>
    refine .inr ⟨not_isSpent hnext, current.successor now fields ⟨n⟩, ?_, toNat_nextNumber? hnext⟩
    rw [(Mutation.Outcome.written hget rfl rfl hnext).perform_eq]

/-- A call that needs no new version does not fail, and does the same whatever is left in the
    counters. -/
theorem perform_recount {c : Call} (h : c.IsFree s) (lastId lastVersion : UInt64) :
    (c.perform s).1.failure? = none ∧
      c.perform (s.recount lastId lastVersion)
        = ((c.perform s).1, (c.perform s).2.recount lastId lastVersion) := by
  cases c with
  | create => exact h.elim
  | read | list => exact ⟨rfl, rfl⟩
  | mutate m =>
    obtain ⟨answer, s', houtcome⟩ := m.exists_outcome s
    have hwrite : ∀ {current now fields}, s.get? m.id = some current →
        current.version = m.expected → m.deed ≠ .write now fields := by
      intro current now fields hget hversion hdeed
      obtain ⟨id, expected, deed⟩ := m
      subst hdeed
      exact h current hget hversion
    rw [mutate_eq houtcome]
    cases houtcome with
    | missing hget =>
      have hagain : m.Outcome (s.recount lastId lastVersion) _ _ := .missing hget
      exact ⟨rfl, mutate_eq hagain⟩
    | stale hget hne =>
      have hagain : m.Outcome (s.recount lastId lastVersion) _ _ := .stale hget hne
      exact ⟨rfl, mutate_eq hagain⟩
    | spent hget hversion hdeed => exact absurd hdeed (hwrite hget hversion)
    | written hget hversion hdeed => exact absurd hdeed (hwrite hget hversion)
    | removed hget hversion hdeed =>
      have hagain : m.Outcome (s.recount lastId lastVersion) _ _ := .removed hget hversion hdeed
      exact ⟨rfl, mutate_eq hagain⟩

-- ============================================================================
-- Once there is no version left
-- ============================================================================

/-- Without a version left, a call commits nothing and leaves no version either. -/
theorem say_of_isSpent {t : Session} (h : IsSpent t.store.lastVersion) (c : Call) :
    IsSpent (t.say c).store.lastVersion ∧
      (Exchange.mk c (t.answer c)).commits = false := by
  have hnone := isSpent_iff.1 h
  unfold Session.say Session.answer
  cases c with
  | create now fields =>
    have hcreated := create_created now fields t.store
    rw [create_eq]
    generalize (Store.create now fields t.store).1 = answer,
      (Store.create now fields t.store).2 = s' at hcreated
    cases hcreated with
    | unnamed | unstamped => exact ⟨h, rfl⟩
    | entered _ hversion => exact absurd h (not_isSpent hversion)
  | mutate m =>
    obtain ⟨id, expected, deed⟩ := m
    obtain ⟨answer, s', houtcome⟩ := (⟨id, expected, deed⟩ : Mutation).exists_outcome t.store
    rw [mutate_eq houtcome]
    cases houtcome with
    | missing | stale | spent => exact ⟨h, by cases deed <;> rfl⟩
    | written _ _ _ hnext => exact absurd h (not_isSpent hnext)
    | removed _ _ hdeed =>
      subst hdeed
      exact ⟨h, rfl⟩
  | read | list => exact ⟨h, rfl⟩

/-- Without a version left, no call ever commits anything again. -/
theorem run_of_isSpent {t : Session} (h : IsSpent t.store.lastVersion) (calls : List Call) :
    ∃ later, (calls.foldl Session.say t).log = t.log ++ later ∧
      ∀ e ∈ later, e.commits = false := by
  induction calls generalizing t with
  | nil => exact ⟨[], (List.append_nil _).symm, fun _ he => (List.not_mem_nil he).elim⟩
  | cons c calls ih =>
    obtain ⟨hspent, hcommits⟩ := say_of_isSpent h c
    obtain ⟨later, hlog, hlater⟩ := ih hspent
    refine ⟨⟨c, t.answer c⟩ :: later, ?_, fun e he => ?_⟩
    · rw [List.foldl_cons, hlog, Session.say, List.append_assoc, List.singleton_append]
    · rcases List.mem_cons.1 he with rfl | he
      · exact hcommits
      · exact hlater e he

end Store

namespace Traffic

open Store

/-- What was committed, or is about to be entered by a creation that has its version. -/
def Stamped (t : Traffic) (l : Link) : Prop :=
  l ∈ t.links ∨ ∃ k, l.owner = .creation k ∧ t.pendingOf k = some l.record

/-- Without a version left, a step commits nothing but what had its version before, and leaves no
    version either. -/
theorem stamped_step {t : Traffic} (h : IsSpent t.store.lastVersion) (a : Action) :
    IsSpent (t.step a).store.lastVersion ∧ ∀ l, (t.step a).Stamped l → t.Stamped l := by
  have heffect := (t.step_moves a).effect
  cases heffect with
  | quiet hlast hlinks hpending | removes hlast hlinks hpending =>
    refine ⟨hlast ▸ h, ?_⟩
    rintro l (hl | ⟨k, howner, hk⟩)
    · exact .inl (hlinks ▸ hl)
    · exact .inr ⟨k, howner, hpending k ▸ hk⟩
  | stamps _ _ _ _ _ _ hnext => exact absurd h (not_isSpent hnext)
  | writes _ _ _ _ _ _ hnext => exact absurd h (not_isSpent hnext)
  | @enters j now r hlast hlinks hpending _ _ _ hwaiting =>
    refine ⟨hlast ▸ h, ?_⟩
    rintro l (hl | ⟨k, howner, hk⟩)
    · rw [hlinks, List.mem_append, List.mem_singleton] at hl
      rcases hl with hl | rfl
      · exact .inl hl
      · exact .inr ⟨j, rfl, hwaiting⟩
    · rw [hpending] at hk
      split at hk
      · contradiction
      · exact .inr ⟨k, howner, hk⟩

/-- Without a version left, nothing is ever committed but what had its version before. -/
theorem stamped_after {t : Traffic} (h : IsSpent t.store.lastVersion) (actions : List Action)
    {l : Link} (hl : l ∈ (t.after actions).links) : t.Stamped l := by
  have hall := after_invariant
    (P := fun u => IsSpent u.store.lastVersion ∧ ∀ l, u.Stamped l → t.Stamped l)
    (fun u a hu => ⟨(stamped_step hu.1 a).1, fun l hl => hu.2 l ((stamped_step hu.1 a).2 l hl)⟩)
    ⟨h, fun _ hl => hl⟩ actions
  exact hall.2 l (.inl hl)

end Traffic

namespace Store

/-- What a store does as its counters come to their ends. -/
structure Depletion (s : Store) : Prop where
  /-- A call that fails leaves the store as it was, unless it is a creation that had its id. -/
  failed : ∀ (c : Call) e, (c.perform s).1.failure? = some e →
    ¬(c.isCreation = true ∧ e = .exhausted versionCounter) → (c.perform s).2 = s
  /-- A creation that had its id but found no version left has used the id up, and nothing
      else. -/
  unstamped : ∀ now fields, (Store.create now fields s).1 = .error (.exhausted versionCounter) →
    (Store.create now fields s).2.records = s.records ∧
      (Store.create now fields s).2.lastVersion = s.lastVersion ∧
      (Store.create now fields s).2.lastId.toNat = s.lastId.toNat + 1
  /-- A creation fails exactly where a counter has run out, the ids being asked for first. -/
  creation : ∀ now fields e, (Store.create now fields s).1 = .error e ↔
    e = .exhausted idCounter ∧ IsSpent s.lastId ∨
      e = .exhausted versionCounter ∧ ¬IsSpent s.lastId ∧ IsSpent s.lastVersion
  /-- A write at the current version takes place unless there is no version left. -/
  write : ∀ now id current fields, s.get? id = some current →
    IsSpent s.lastVersion ∧
        (Store.write now id current.version fields s).1 = .error (.exhausted versionCounter) ∨
      ¬IsSpent s.lastVersion ∧ ∃ r,
        (Store.write now id current.version fields s).1 = .ok (.committed r) ∧
          r.version.raw.toNat = s.lastVersion.toNat + 1
  /-- A call that needs no new version does not fail, and does the same whatever is left in the
      counters. -/
  free : ∀ (c : Call) lastId lastVersion, c.IsFree s →
    (c.perform s).1.failure? = none ∧
      c.perform (s.recount lastId lastVersion)
        = ((c.perform s).1, (c.perform s).2.recount lastId lastVersion)
  /-- The counters never go back. -/
  onward : ∀ c : Call,
    s.lastVersion ≤ (c.perform s).2.lastVersion ∧ s.lastId ≤ (c.perform s).2.lastId
  /-- Without a version left, no call ever commits anything again. -/
  forever : IsSpent s.lastVersion → ∀ (log : List Exchange) (calls : List Call),
    ∃ later, (calls.foldl Session.say ⟨s, log⟩).log = log ++ later ∧
      ∀ e ∈ later, e.commits = false
  /-- Nor does any interleaving of clients, but for creations that had their versions before. -/
  interleaved : IsSpent s.lastVersion → ∀ creations log (actions : List Traffic.Action),
    ∀ l ∈ ((⟨s, creations, log⟩ : Traffic).after actions).links,
      (⟨s, creations, log⟩ : Traffic).Stamped l

/-- Whatever a store holds and wherever its counters stand, none of them wraps and nothing is
    committed by halves. -/
theorem depletion (s : Store) : s.Depletion where
  failed _ _ := perform_of_failure
  unstamped _ _ := create_unstamped
  creation _ _ _ := create_eq_error_iff
  write now _ _ fields hget := write_current hget now fields
  free _ lastId lastVersion h := perform_recount h lastId lastVersion
  onward c := perform_le c s
  forever h log calls := run_of_isSpent (t := ⟨s, log⟩) h calls
  interleaved h _ _ actions _ hl := Traffic.stamped_after h actions hl

/-- With one version left, a write takes it; then neither a write nor a creation takes place any
    more, and a removal still does. -/
example :
    let s : Store := ⟨(∅ : Std.ExtTreeMap RecordId Record).insert ⟨1⟩
      (.create default ⟨1⟩ ∅ ⟨1⟩), 18446744073709551614, 1⟩
    let last : Version := ⟨18446744073709551615⟩
    let t : Session := [Call.mutate ⟨⟨1⟩, ⟨1⟩, .write default ∅⟩,
      .mutate ⟨⟨1⟩, last, .write default ∅⟩, .create default ∅,
      .mutate ⟨⟨1⟩, last, .delete⟩].foldl Session.say ⟨s, []⟩
    t.log.map (·.commits) = [true, false, false, false] ∧ t.store.isEmpty = true ∧
      t.store.lastId = 2 := by
  decide

end Store

end VersionedStore
