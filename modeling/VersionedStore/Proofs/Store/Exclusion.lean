/-
  VersionedStore.Proofs.Store.Exclusion

  A version is good for one write or removal.

  Of all the writes and removals that present a version of a record, at most one
  takes place, and after it the others are refused and change nothing: the
  record has moved on to a newer version for good, or is gone for good.
-/
import VersionedStore.Proofs.Store.Life

namespace VersionedStore
namespace Traffic

variable {t t' : Traffic} {a : Action}

/-- A record was created and has moved on from a version, or is gone. -/
def Spent (t : Traffic) (id : RecordId) (v : Version) : Prop :=
  t.Born id ∧ ∀ r, t.store.get? id = some r → v.raw < r.version.raw

/-- A record was created and is at a version or has moved on from it, or is gone. -/
def Reached (t : Traffic) (id : RecordId) (v : Version) : Prop :=
  t.Born id ∧ ∀ r, t.store.get? id = some r → v.raw ≤ r.version.raw

/-- What holds of a record's version and of all newer ones, a step keeps. -/
theorem Sound.version_step (hs : t.Sound) (a : Action) {id : RecordId} (hborn : t.Born id)
    {P : UInt64 → Prop} (hnewer : ∀ {v w : UInt64}, P v → v < w → P w)
    (h : ∀ r, t.store.get? id = some r → P r.version.raw) :
    ∀ q, (t.step a).store.get? id = some q → P q.version.raw := by
  intro q hq
  have hlater := hs.later_step a hborn
  rw [hq] at hlater
  cases hget : t.store.get? id with
  | none =>
    rw [hget] at hlater
    exact absurd hlater.eq_none (by simp)
  | some r =>
    rw [hget] at hlater
    have hr := h r hget
    cases hlater with
    | same => exact hr
    | newer hlt => exact hnewer hr hlt

/-- A version that is spent stays so. -/
theorem Sound.spent_step (hs : t.Sound) (a : Action) {id : RecordId} {v : Version}
    (h : t.Spent id v) : (t.step a).Spent id v :=
  ⟨t.born_step a h.1, hs.version_step a h.1 UInt64.lt_trans h.2⟩

/-- A version that was reached stays so. -/
theorem Sound.reached_step (hs : t.Sound) (a : Action) {id : RecordId} {v : Version}
    (h : t.Reached id v) : (t.step a).Reached id v :=
  ⟨t.born_step a h.1, hs.version_step a h.1
    (fun hle hlt => UInt64.le_trans hle (UInt64.le_of_lt hlt)) h.2⟩

/-- What every step of sound traffic keeps, a run of it keeps. -/
theorem Sound.after_invariant {P : Traffic → Prop}
    (hstep : ∀ {t : Traffic}, t.Sound → ∀ a, P t → P (t.step a)) (hs : t.Sound) (h : P t)
    (actions : List Action) : (t.after actions).Sound ∧ P (t.after actions) :=
  Traffic.after_invariant (P := fun t => t.Sound ∧ P t)
    (fun _ a hboth => ⟨hboth.1.step a, hstep hboth.1 a hboth.2⟩) ⟨hs, h⟩ actions

theorem Sound.spent_after (hs : t.Sound) (actions : List Action) {id : RecordId} {v : Version}
    (h : t.Spent id v) : (t.after actions).Spent id v :=
  (hs.after_invariant (fun hs a => hs.spent_step a) h actions).2

theorem Sound.reached_after (hs : t.Sound) (actions : List Action) {id : RecordId} {v : Version}
    (h : t.Reached id v) : (t.after actions).Reached id v :=
  (hs.after_invariant (fun hs a => hs.reached_step a) h actions).2

/-- A record that is read has reached its version. -/
theorem Sound.reached_of_get? (hs : t.Sound) {id : RecordId} {r : Record}
    (hr : t.store.get? id = some r) : t.Reached id r.version := by
  refine ⟨hs.born_of_get? hr, fun q hq => ?_⟩
  rw [hr] at hq
  rw [Option.some.inj hq]
  exact UInt64.le_refl _

/-- A write or removal that takes place spends the version that it presented. -/
theorem Sound.spent_of_committed (hs : t.Sound) (client : Nat) {m : Mutation} {r : Record}
    (h : (m.perform t.store).1 = .ok (.committed r)) :
    (t.step (.mutate client m)).Spent m.id m.expected := by
  have hborn : ∀ {current}, t.store.get? m.id = some current →
      (t.step (.mutate client m)).Born m.id := fun hget => t.born_step _ (hs.born_of_get? hget)
  have houtcome := m.perform_outcome t.store
  generalize hs' : (m.perform t.store).2 = s at houtcome
  rw [h] at houtcome
  have hstep : (t.step (.mutate client m)).store = s := hs'
  cases houtcome with
  | @written current now fields n hget hversion _ hnext =>
    refine ⟨hborn hget, fun q hq => ?_⟩
    have hid : (current.successor now fields ⟨n⟩).id = m.id := (hs.live hget).1
    rw [hstep, Store.get?_enter, if_pos hid] at hq
    obtain rfl := Option.some.inj hq
    rw [← hversion]
    exact hs.lt_of_nextNumber? hget hnext
  | removed hget =>
    refine ⟨hborn hget, fun q hq => ?_⟩
    rw [hstep, Store.get?_erase, if_pos rfl] at hq
    contradiction

/-- A write or removal that takes place spends all versions that the record has reached. -/
theorem Sound.spent_of_reached (hs : t.Sound) (client : Nat) {m : Mutation} {r : Record}
    (h : (m.perform t.store).1 = .ok (.committed r)) {v : Version} (hv : t.Reached m.id v) :
    (t.step (.mutate client m)).Spent m.id v := by
  obtain ⟨hborn, hspent⟩ := hs.spent_of_committed client h
  obtain ⟨current, hget, hversion⟩ := Mutation.current_of_committed h
  have hle := hv.2 current hget
  rw [hversion] at hle
  exact ⟨hborn, fun q hq => UInt64.lt_of_le_of_lt hle (hspent q hq)⟩

/-- Whoever presents a version that is spent is refused, and changes nothing. -/
theorem Spent.refused {id : RecordId} {v : Version} (h : t.Spent id v) {m : Mutation}
    (hid : m.id = id) (hversion : m.expected = v) :
    ∃ answer, m.perform t.store = (answer, t.store) ∧
      (answer = .ok .notFound ∨ ∃ r, answer = .ok (.versionMismatch r) ∧ r.version ≠ v) := by
  subst hid hversion
  have houtcome := m.perform_outcome t.store
  have hne : ∀ {current}, t.store.get? m.id = some current → current.version ≠ m.expected := by
    intro current hget heq
    have hlt := h.2 current hget
    rw [heq] at hlt
    exact UInt64.lt_irrefl _ hlt
  generalize hperform : m.perform t.store = p at houtcome
  obtain ⟨answer, s⟩ := p
  cases houtcome with
  | missing => exact ⟨_, rfl, .inl rfl⟩
  | stale hget => exact ⟨_, rfl, .inr ⟨_, rfl, hne hget⟩⟩
  | spent hget hversion => exact absurd hversion (hne hget)
  | written hget hversion => exact absurd hversion (hne hget)
  | removed hget hversion => exact absurd hversion (hne hget)

theorem consumes_iff {id : RecordId} {v : Version} {client : Nat} {m : Mutation}
    {answer : Except StoreError WriteOutcome} :
    (Entry.mutated client m answer).consumes id v = true ↔
      m.id = id ∧ m.expected = v ∧ ∃ r, answer = .ok (.committed r) := by
  match answer with
  | .ok (.committed r) => simp [Entry.consumes]
  | .ok (.versionMismatch r) => simp [Entry.consumes]
  | .ok .notFound => simp [Entry.consumes]
  | .error e => simp [Entry.consumes]

/-- Creations consume no version. -/
theorem countP_consumes_advance (t : Traffic) (k : Nat) (now : Instant) (id : RecordId)
    (v : Version) :
    (t.step (.advance k now)).log.countP (Entry.consumes id v)
      = t.log.countP (Entry.consumes id v) := by
  cases hc : t.creations k with
  | none => simp [step, hc]
  | some c =>
    have hentries : (entriesOf k c).countP (Entry.consumes id v) = 0 := by
      unfold entriesOf
      split <;> simp [Entry.consumes]
    simp [step, hc, List.countP_append, hentries]

theorem log_ask (t : Traffic) (k : Nat) (fields : Fields) :
    (t.step (.ask k fields)).log = t.log := by
  cases hc : t.creations k <;> simp [step, hc]

/-- A version is consumed at most once, and is spent from then on. -/
def Exclusive (t : Traffic) (id : RecordId) (v : Version) : Prop :=
  t.log.countP (Entry.consumes id v) ≤ 1 ∧
    (0 < t.log.countP (Entry.consumes id v) → t.Spent id v)

theorem Sound.exclusive_step (hs : t.Sound) (a : Action) {id : RecordId} {v : Version}
    (h : t.Exclusive id v) : (t.step a).Exclusive id v := by
  obtain ⟨hle, hspent⟩ := h
  have hkeep : ∀ {t' : Traffic}, t' = t.step a →
      t'.log.countP (Entry.consumes id v) = t.log.countP (Entry.consumes id v) →
      t'.Exclusive id v := by
    rintro t' rfl hcount
    exact ⟨hcount ▸ hle, fun hpos => hs.spent_step a (hspent (hcount ▸ hpos))⟩
  cases a with
  | ask k fields => exact hkeep rfl (by rw [log_ask])
  | advance k now => exact hkeep rfl (t.countP_consumes_advance k now id v)
  | mutate client m =>
    have hlog : (t.step (.mutate client m)).log
        = t.log ++ [.mutated client m (m.perform t.store).1] := rfl
    by_cases hconsumes : (Entry.mutated client m (m.perform t.store).1).consumes id v = true
    · obtain ⟨rfl, rfl, r, hanswer⟩ := consumes_iff.1 hconsumes
      -- the version was not spent before, or this call would have been refused
      have hzero : t.log.countP (Entry.consumes m.id m.expected) = 0 := by
        by_contra hne
        obtain ⟨answer, hperform, hrefused⟩ :=
          (hspent (Nat.pos_of_ne_zero hne)).refused rfl rfl
        rw [hperform] at hanswer
        rcases hrefused with hno | ⟨q, hstale, -⟩ <;> simp_all
      refine ⟨?_, fun _ => hs.spent_of_committed client hanswer⟩
      rw [hlog, List.countP_append, hzero]
      simp [hconsumes]
    · refine hkeep rfl ?_
      rw [hlog, List.countP_append]
      simp [hconsumes]

theorem run_append (actions later : List Action) :
    run (actions ++ later) = (run actions).after later :=
  List.foldl_append

theorem exclusive_run (actions : List Action) (id : RecordId) (v : Version) :
    (run actions).Exclusive id v := by
  have hstart : start.Exclusive id v := ⟨by simp [start], by simp [start]⟩
  exact (sound_start.after_invariant (fun hs a => hs.exclusive_step a) hstart actions).2

/-- In any run, at most one write or removal that presents a version of a record takes place.
    Once one has, every later one that presents the same version, at any later point, is told
    that the record is at another version or is not there, and changes nothing. -/
theorem run_exclusive (actions : List Action) (id : RecordId) (v : Version) :
    (run actions).log.countP (Entry.consumes id v) ≤ 1 ∧
      ((∃ e ∈ (run actions).log, e.consumes id v = true) →
        ∀ (later : List Action) (client : Nat) (m : Mutation), m.id = id → m.expected = v →
          ∃ answer,
            (run (actions ++ later)).step (.mutate client m)
              = { run (actions ++ later) with
                  log := (run (actions ++ later)).log ++ [.mutated client m answer] } ∧
            (answer = .ok .notFound ∨
              ∃ r, answer = .ok (.versionMismatch r) ∧ r.version ≠ v)) := by
  obtain ⟨hle, hspent⟩ := exclusive_run actions id v
  refine ⟨hle, ?_⟩
  intro hconsumed later client m hid hversion
  have hpos : 0 < (run actions).log.countP (Entry.consumes id v) :=
    List.countP_pos_iff.2 hconsumed
  have hlater : (run (actions ++ later)).Spent id v := by
    rw [run_append]
    exact (sound_run actions).spent_after later (hspent hpos)
  obtain ⟨answer, hperform, hrefused⟩ := hlater.refused hid hversion
  exact ⟨answer, by simp [step, hperform], hrefused⟩

/-- A client has written to a record at its first version; after a further write, a removal that
    presents the first version still is refused. -/
theorem run_exclusive_race :
    let first : Action := .mutate 1 ⟨⟨1⟩, ⟨1⟩, .write default ∅⟩
    let actions := [.ask 0 ∅, .advance 0 default, .advance 0 default, .advance 0 default, first]
    (∃ e ∈ (run actions).log, e.consumes ⟨1⟩ ⟨1⟩ = true) ∧
      ∃ answer, (run (actions ++ [.mutate 2 ⟨⟨1⟩, ⟨2⟩, .write default ∅⟩])).step
          (.mutate 3 ⟨⟨1⟩, ⟨1⟩, .delete⟩)
        = { run (actions ++ [.mutate 2 ⟨⟨1⟩, ⟨2⟩, .write default ∅⟩]) with
            log := (run (actions ++ [.mutate 2 ⟨⟨1⟩, ⟨2⟩, .write default ∅⟩])).log
              ++ [.mutated 3 ⟨⟨1⟩, ⟨1⟩, .delete⟩ answer] } ∧
        (answer = .ok .notFound ∨ ∃ r, answer = .ok (.versionMismatch r) ∧ r.version ≠ ⟨1⟩) := by
  intro first actions
  have hconsumed : ∃ e ∈ (run actions).log, e.consumes ⟨1⟩ ⟨1⟩ = true := by decide
  exact ⟨hconsumed, (run_exclusive actions ⟨1⟩ ⟨1⟩).2 hconsumed _ 3 ⟨⟨1⟩, ⟨1⟩, .delete⟩ rfl rfl⟩

end Traffic
end VersionedStore
