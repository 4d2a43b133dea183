/-
  VersionedStore.Proofs.Store.Commutation

  Writes and removals of different records commute, but for the versions that they
  are given.

  The records share the counter of versions and nothing else.  So what a mutation
  does is a matter of the record under its own id and of the version that is next
  (`Mutation.effect`), and another mutation before it, of another record, can only
  have moved that version by one.  Two writes that both take place exchange their
  versions when they change places; whatever else happens is the same in either
  order, except for the times of the writes.
-/
import Mathlib.Logic.Equiv.Basic
import VersionedStore.Proofs.Store.Life

namespace VersionedStore

-- ============================================================================
-- The same but for times and for the names of versions
-- ============================================================================

/-- All of a record but when it was last written; whether it was, counts. -/
def Record.timeless (r : Record) : RecordId × Fields × Version × Instant × Bool :=
  (r.id, r.fields, r.version, r.createdAt, r.lastModified.isSome)

/-- The record with its version renamed. -/
def Record.renamed (r : Record) (σ : Version → Version) : Record :=
  { r with version := σ r.version }

/-- Outcomes of the same kind.  The records of two commits differ in the time of the last write,
    and in their versions as `σ` says; what a mismatch carries is the very same record. -/
inductive WriteOutcome.Renamed (σ : Version → Version) : WriteOutcome → WriteOutcome → Prop where
  | committed {r r' : Record} (h : r'.timeless = (r.renamed σ).timeless) :
      Renamed σ (.committed r) (.committed r')
  | versionMismatch {r : Record} : Renamed σ (.versionMismatch r) (.versionMismatch r)
  | notFound : Renamed σ .notFound .notFound

/-- Stores with the same counters and the same live ids, whose records differ in the times of
    their last writes, and in their versions as `σ` says. -/
structure Store.Renamed (σ : Version → Version) (s s' : Store) : Prop where
  records : ∀ id, (s'.get? id).map Record.timeless
    = (s.get? id).map fun r => (r.renamed σ).timeless
  lastVersion_eq : s'.lastVersion = s.lastVersion
  lastId_eq : s'.lastId = s.lastId

/-- Whether a deed writes. -/
def Deed.isWrite : Deed → Bool
  | write .. => true
  | delete => false

namespace Mutation

/-- The same mutation at another time. -/
def retimed (m : Mutation) (now : Instant) : Mutation :=
  match m.deed with
  | .write _ fields => { m with deed := .write now fields }
  | .delete => m

/-- The version that a write gave to its record, if it took place. -/
def issued? (m : Mutation) (answer : Except StoreError WriteOutcome) : Option Version :=
  match m.deed, answer with
  | .write .., .ok (.committed r) => some r.version
  | _, _ => none

/-- Exchange two versions, if there are two. -/
def exchange : Option Version → Option Version → Version → Version
  | some v, some w => Equiv.swap v w
  | _, _ => fun v => v

/-- What two mutations come to does not depend on which of them comes first, but for the times of
    the writes and for the versions of two writes that both take place, which are exchanged. -/
structure Commuting (s : Store) (m₁ m₂ : Mutation) (now₁ now₂ : Instant)
    (σ : Version → Version) : Prop where
  first : ∃ o o', (m₁.perform s).1 = .ok o ∧
    ((m₁.retimed now₁).perform ((m₂.retimed now₂).perform s).2).1 = .ok o' ∧ o.Renamed σ o'
  second : ∃ o o', (m₂.perform (m₁.perform s).2).1 = .ok o ∧
    ((m₂.retimed now₂).perform s).1 = .ok o' ∧ o.Renamed σ o'
  stores : (m₂.perform (m₁.perform s).2).2.Renamed σ
    ((m₁.retimed now₁).perform ((m₂.retimed now₂).perform s).2).2
  others : ∀ id, id ≠ m₁.id → id ≠ m₂.id →
    (m₂.perform (m₁.perform s).2).2.get? id = s.get? id ∧
      ((m₁.retimed now₁).perform ((m₂.retimed now₂).perform s).2).2.get? id = s.get? id

-- ============================================================================
-- What a mutation does to its own record
-- ============================================================================

/-- The outcome of a mutation and the record after it, given the record before it and the version
    that is next. -/
def effect (m : Mutation) (current? : Option Record) (next : Version) :
    WriteOutcome × Option Record :=
  match current? with
  | none => (.notFound, none)
  | some current =>
    if current.version = m.expected then
      match m.deed with
      | .write now fields =>
        (.committed (current.successor now fields next),
          some (current.successor now fields next))
      | .delete => (.committed current, none)
    else (.versionMismatch current, some current)

/-- Whether a mutation is a write that takes place, given the record before it. -/
def takes (m : Mutation) (current? : Option Record) : Bool :=
  m.deed.isWrite && current?.any (·.version = m.expected)

variable {m : Mutation} {s : Store} {v : Version}

theorem id_retimed (m : Mutation) (now : Instant) : (m.retimed now).id = m.id := by
  unfold retimed
  split <;> rfl

theorem takes_retimed (m : Mutation) (now : Instant) (current? : Option Record) :
    (m.retimed now).takes current? = m.takes current? := by
  obtain ⟨id, expected, deed⟩ := m
  cases deed <;> rfl

theorem issued?_effect (m : Mutation) (current? : Option Record) (next : Version) :
    m.issued? (.ok (m.effect current? next).1)
      = if m.takes current? then some next else none := by
  obtain ⟨id, expected, deed⟩ := m
  cases current? with
  | none => cases deed <;> rfl
  | some current =>
    by_cases hversion : current.version = expected <;>
      cases deed <;> simp [effect, takes, issued?, Deed.isWrite, hversion, Record.successor]

/-- A mutation has its effect on its own record and on no other, and takes the next version if it
    is a write that takes place. -/
structure Local (m : Mutation) (s : Store) (next : Version) : Prop where
  answer : (m.perform s).1 = .ok (m.effect (s.get? m.id) next).1
  own : (m.perform s).2.get? m.id = (m.effect (s.get? m.id) next).2
  other : ∀ id, id ≠ m.id → (m.perform s).2.get? id = s.get? id
  lastVersion : (m.perform s).2.lastVersion
    = if m.takes (s.get? m.id) then next.raw else s.lastVersion
  lastId : (m.perform s).2.lastId = s.lastId

theorem perform_local (hlive : ∀ r, s.get? m.id = some r → r.id = m.id)
    (hnext : nextNumber? s.lastVersion = some v.raw) : m.Local s v := by
  obtain ⟨answer, t, houtcome⟩ := m.exists_outcome s
  have hperform := houtcome.perform_eq
  cases houtcome with
  | missing hget =>
    constructor <;> rw [hperform]
    case answer => rw [hget]; rfl
    case own => rw [hget]; rfl
    case other => exact fun _ _ => rfl
    case lastVersion => simp [hget, takes]
  | @stale current hget hne =>
    have heffect : m.effect (some current) v = (.versionMismatch current, some current) :=
      if_neg hne
    constructor <;> rw [hperform]
    case answer => rw [hget, heffect]
    case own => rw [hget, heffect]
    case other => exact fun _ _ => rfl
    case lastVersion => simp [hget, takes, hne]
  | spent hget hversion hdeed hnone =>
    rw [hnext] at hnone
    contradiction
  | @written current now fields n hget hversion hdeed hnext' =>
    obtain rfl : v = ⟨n⟩ := congrArg Version.mk (Option.some.inj (hnext.symm.trans hnext'))
    have hid : current.id = m.id := hlive current hget
    have heffect : m.effect (some current) ⟨n⟩ = (.committed (current.successor now fields ⟨n⟩),
        some (current.successor now fields ⟨n⟩)) := by
      simp [effect, hversion, hdeed]
    have hget' := Store.get?_enter (current.successor now fields ⟨n⟩) { s with lastVersion := n }
    constructor <;> rw [hperform]
    case answer => rw [hget, heffect]
    case own => rw [hget, heffect, hget']; exact if_pos hid
    case other =>
      intro id hne
      rw [hget', if_neg]
      · rfl
      · exact fun heq => hne (heq.symm.trans hid)
    case lastVersion => simp [hget, takes, hversion, hdeed, Deed.isWrite, Store.enter]
    case lastId => rfl
  | @removed current hget hversion hdeed =>
    have heffect : m.effect (some current) v = (.committed current, none) := by
      simp [effect, hversion, hdeed]
    constructor <;> rw [hperform]
    case answer => rw [hget, heffect]
    case own => rw [hget, heffect, Store.get?_erase, if_pos rfl]
    case other => exact fun id hne => by rw [Store.get?_erase, if_neg (Ne.symm hne)]
    case lastVersion => simp [hget, takes, hdeed, Deed.isWrite]

/-- The effect of a mutation at another time and with another version that is next: the same, but
    for the time and for the name of that version. -/
theorem effect_renamed {current? : Option Record} {v' : Version} {σ : Version → Version}
    (hfixed : ∀ r, current? = some r → σ r.version = r.version)
    (htaken : m.takes current? → σ v = v') (now : Instant) :
    (m.effect current? v).1.Renamed σ ((m.retimed now).effect current? v').1 ∧
      ((m.retimed now).effect current? v').2.map Record.timeless
        = (m.effect current? v).2.map fun r => (r.renamed σ).timeless := by
  cases current? with
  | none => exact ⟨.notFound, rfl⟩
  | some current =>
    have hsame : current.timeless = (current.renamed σ).timeless := by
      rw [Record.renamed, hfixed current rfl]
    obtain ⟨id, expected, deed⟩ := m
    by_cases hversion : current.version = expected
    · cases deed with
      | delete =>
        simp only [retimed, effect, hversion, if_true]
        exact ⟨.committed hsame, rfl⟩
      | write before fields =>
        have hnew : (current.successor now fields v').timeless
            = ((current.successor before fields v).renamed σ).timeless := by
          simp [Record.timeless, Record.renamed, Record.successor,
            htaken (by simp [takes, hversion, Deed.isWrite])]
        simp only [retimed, effect, hversion, if_true]
        exact ⟨.committed hnew, congrArg some hnew⟩
    · cases deed <;>
      · simp only [retimed, effect, hversion, if_false]
        exact ⟨.versionMismatch, congrArg some hsame⟩

-- ============================================================================
-- Two mutations, one after the other
-- ============================================================================

/-- The version that is next after a mutation, where `n` is next before it and `n'` after `n`. -/
def following (m : Mutation) (current? : Option Record) (n n' : UInt64) : Version :=
  ⟨if m.takes current? then n' else n⟩

/-- Two mutations of different records, one after the other, have their effects on the records that
    they would have found alone; the second is given the version that the first has left. -/
structure InTurn (m k : Mutation) (s : Store) (n n' : UInt64) : Prop where
  first : (m.perform s).1 = .ok (m.effect (s.get? m.id) ⟨n⟩).1
  second : (k.perform (m.perform s).2).1
    = .ok (k.effect (s.get? k.id) (m.following (s.get? m.id) n n')).1
  get?_first : (k.perform (m.perform s).2).2.get? m.id = (m.effect (s.get? m.id) ⟨n⟩).2
  get?_second : (k.perform (m.perform s).2).2.get? k.id
    = (k.effect (s.get? k.id) (m.following (s.get? m.id) n n')).2
  get?_other : ∀ id, id ≠ m.id → id ≠ k.id →
    (k.perform (m.perform s).2).2.get? id = s.get? id
  lastVersion : (k.perform (m.perform s).2).2.lastVersion
    = if k.takes (s.get? k.id) then (m.following (s.get? m.id) n n').raw
      else if m.takes (s.get? m.id) then n else s.lastVersion
  lastId : (k.perform (m.perform s).2).2.lastId = s.lastId

theorem perform_inTurn {m k : Mutation} {n n' : UInt64} (hids : m.id ≠ k.id)
    (hlive : ∀ id r, s.get? id = some r → r.id = id)
    (hnext : nextNumber? s.lastVersion = some n) (hnext' : nextNumber? n = some n') :
    m.InTurn k s n n' := by
  have hm : m.Local s ⟨n⟩ := perform_local (hlive m.id) hnext
  have hget : (m.perform s).2.get? k.id = s.get? k.id := hm.other k.id (Ne.symm hids)
  have hk : k.Local (m.perform s).2 (m.following (s.get? m.id) n n') := by
    refine perform_local (fun r hr => hlive k.id r (hget ▸ hr)) ?_
    rw [hm.lastVersion, following]
    split
    · exact hnext'
    · exact hnext
  constructor
  case first => exact hm.answer
  case second => rw [hk.answer, hget]
  case get?_first => rw [hk.other m.id hids, hm.own]
  case get?_second => rw [hk.own, hget]
  case get?_other => exact fun id hne hne' => by rw [hk.other id hne', hm.other id hne]
  case lastVersion => rw [hk.lastVersion, hget, hm.lastVersion]
  case lastId => rw [hk.lastId, hm.lastId]

/-- The versions that two writes are given in turn are exchanged, and no other version is
    renamed. -/
theorem exchange_following {m₁ m₂ : Mutation} {c₁ c₂ : Option Record} {n n' : UInt64}
    {σ : Version → Version}
    (hσ : σ = exchange (if m₁.takes c₁ then some ⟨n⟩ else none)
      (if m₂.takes c₂ then some (m₁.following c₁ n n') else none)) :
    (m₁.takes c₁ → σ ⟨n⟩ = m₂.following c₂ n n') ∧
      (m₂.takes c₂ → σ (m₁.following c₁ n n') = ⟨n⟩) ∧
      ∀ v, v ≠ ⟨n⟩ → v ≠ ⟨n'⟩ → σ v = v := by
  subst hσ
  cases h₁ : m₁.takes c₁ with
  | false => simp [exchange, following, h₁]
  | true =>
    cases h₂ : m₂.takes c₂ with
    | false => simp [exchange, following, h₁, h₂]
    | true =>
      simp only [exchange, following, h₁, h₂, if_true]
      refine ⟨fun _ => ?_, fun _ => ?_, fun v hne hne' => ?_⟩
      · exact Equiv.swap_apply_left ..
      · exact Equiv.swap_apply_right ..
      · exact Equiv.swap_apply_of_ne_of_ne hne hne'

/-- Two mutations of different records commute if the versions that are next are not in use. -/
theorem InTurn.commute {m₁ m₂ : Mutation} {now₁ now₂ : Instant} {n n' : UInt64}
    (h : m₁.InTurn m₂ s n n') (h' : (m₂.retimed now₂).InTurn (m₁.retimed now₁) s n n')
    (hunused : ∀ id r, s.get? id = some r → r.version ≠ ⟨n⟩ ∧ r.version ≠ ⟨n'⟩) :
    Commuting s m₁ m₂ now₁ now₂ (exchange (m₁.issued? (m₁.perform s).1)
      (m₂.issued? (m₂.perform (m₁.perform s).2).1)) := by
  obtain ⟨hfirst', hsecond', hget₂', hget₁', hother', hlast', hlastId'⟩ := h'
  simp only [id_retimed, takes_retimed, following] at hfirst' hsecond' hget₁' hget₂' hother' hlast'
  rw [h.first, h.second, issued?_effect, issued?_effect]
  generalize hσ : exchange _ _ = σ
  obtain ⟨htaken₁, htaken₂, hrest⟩ := exchange_following hσ.symm
  have hfixed : ∀ id r, s.get? id = some r → σ r.version = r.version := fun id r hr =>
    hrest r.version (hunused id r hr).1 (hunused id r hr).2
  obtain ⟨hanswer₁, hrecord₁⟩ := effect_renamed (hfixed m₁.id) htaken₁ now₁
  obtain ⟨hanswer₂, hrecord₂⟩ := effect_renamed (hfixed m₂.id) htaken₂ now₂
  constructor
  case first => exact ⟨_, _, h.first, hsecond', hanswer₁⟩
  case second => exact ⟨_, _, h.second, hfirst', hanswer₂⟩
  case others => exact fun id hne hne' => ⟨h.get?_other id hne hne', hother' id hne' hne⟩
  case stores =>
    refine ⟨fun id => ?_, ?_, by rw [hlastId', h.lastId]⟩
    · by_cases hid₁ : id = m₁.id
      · rw [hid₁, hget₁', h.get?_first]
        exact hrecord₁
      by_cases hid₂ : id = m₂.id
      · rw [hid₂, hget₂', h.get?_second]
        exact hrecord₂
      rw [hother' id hid₂ hid₁, h.get?_other id hid₁ hid₂]
      cases hget : s.get? id with
      | none => rfl
      | some r => simp only [Option.map_some, Record.renamed, hfixed id r hget]
    · rw [hlast', h.lastVersion, following]
      cases m₁.takes (s.get? m₁.id) <;> cases m₂.takes (s.get? m₂.id) <;> rfl

end Mutation

-- ============================================================================
-- Reachable stores
-- ============================================================================

namespace Store

theorem exists_nextNumber? (last : UInt64) (h : last.toNat + 1 < UInt64.size) :
    ∃ n, nextNumber? last = some n ∧ n.toNat = last.toNat + 1 := by
  cases hnext : nextNumber? last with
  | none =>
    have hlast := nextNumber?_eq_none_iff.1 hnext
    omega
  | some n => exact ⟨n, rfl, toNat_nextNumber? hnext⟩

end Store

namespace Traffic

open Mutation

/-- In every state that a store can get into, with two versions at least to be handed out, two
    mutations of different records commute, but for the times of the writes and for the versions
    of two writes that both take place. -/
theorem run_commute (actions : List Action) (m₁ m₂ : Mutation) (now₁ now₂ : Instant)
    (hids : m₁.id ≠ m₂.id)
    (hversions : (run actions).store.lastVersion.toNat + 2 < UInt64.size) :
    Commuting (run actions).store m₁ m₂ now₁ now₂
      (exchange (m₁.issued? (m₁.perform (run actions).store).1)
        (m₂.issued? (m₂.perform (m₁.perform (run actions).store).2).1)) := by
  have hs := sound_run actions
  have hlive : ∀ id r, (run actions).store.get? id = some r → r.id = id :=
    fun id r hr => (hs.live hr).1
  obtain ⟨n, hnext, hn⟩ := Store.exists_nextNumber? _ (Nat.lt_of_succ_lt hversions)
  obtain ⟨n', hnext', hn'⟩ := Store.exists_nextNumber? n (by omega)
  have hids' : (m₂.retimed now₂).id ≠ (m₁.retimed now₁).id := by
    rw [id_retimed, id_retimed]
    exact Ne.symm hids
  refine InTurn.commute (perform_inTurn hids hlive hnext hnext')
    (perform_inTurn hids' hlive hnext hnext') fun id r hr => ?_
  have hle := hs.version_le hr
  refine ⟨?_, ?_⟩ <;>
  · intro heq
    rw [heq] at hle
    simp only at hle
    omega

/-- Two records are at versions 1 and 2, and both are written: the one that is written first is at
    version 3 afterwards and the other at version 4. -/
theorem run_commute_exchanged :
    let actions : List Action := [.ask 0 ∅, .advance 0 default, .advance 0 default,
      .advance 0 default, .ask 1 ∅, .advance 1 default, .advance 1 default, .advance 1 default]
    let m₁ : Mutation := ⟨⟨1⟩, ⟨1⟩, .write default (.ofList [("stock", .int 7)])⟩
    let m₂ : Mutation := ⟨⟨2⟩, ⟨2⟩, .write default ∅⟩
    m₁.id ≠ m₂.id ∧ (run actions).store.lastVersion.toNat + 2 < UInt64.size ∧
      Commuting (run actions).store m₁ m₂ (.ofNanoseconds 5) default (Equiv.swap ⟨3⟩ ⟨4⟩) := by
  intro actions m₁ m₂
  have hids : m₁.id ≠ m₂.id := by decide
  have hversions : (run actions).store.lastVersion.toNat + 2 < UInt64.size := by decide
  have hfirst : m₁.issued? (m₁.perform (run actions).store).1 = some ⟨3⟩ := by decide
  have hsecond : m₂.issued? (m₂.perform (m₁.perform (run actions).store).2).1 = some ⟨4⟩ := by
    decide
  have hcommute := run_commute actions m₁ m₂ (.ofNanoseconds 5) default hids hversions
  rw [hfirst, hsecond] at hcommute
  exact ⟨hids, hversions, hcommute⟩

end Traffic
end VersionedStore
