/-
  VersionedStore.Proofs.Database.Writers

  One writer of a race, and what the writers' ends come to.

  A writer goes through its stages in a fixed order (`Race.Fits`), whatever happens
  to the store.  `Race.Moves` says once what one of its steps can be, with what the
  step finds in the store; only a commit changes the store.
-/
import VersionedStore.Proofs.Database.Traffic
import VersionedStore.Proofs.Database.Validity
import VersionedStore.Proofs.Document.Decode
import VersionedStore.Proofs.Update.Conflicts

namespace VersionedStore

namespace Simulation

open Update

-- ============================================================================
-- Stages
-- ============================================================================

/-- The version that a writer has read and is going to present. -/
def Stage.held? : Stage → Option Version
  | .ready (.ok (some seen)) => some seen.version
  | .updating request _ => request.expected
  | .reading | .ready _ | .done _ => none

/-- Whether a writer has set the price. -/
def Stage.hasWon : Stage → Bool
  | .done (.ok sighting) => sighting.status = .success
  | .reading | .ready _ | .updating .. | .done _ => false

/-- Whether a writer is still in front of the barrier. -/
def Stage.isEarly : Stage → Bool
  | .reading | .ready _ => true
  | .updating .. | .done _ => false

/-- The stages that the writer of a number goes through. -/
inductive Race.Fits (race : Race) (n : Nat) : Stage → Prop where
  | reading : race.Fits n .reading
  | ready {seen : Except StoreError (Option Record)} : race.Fits n (.ready seen)
  | entering {seen : Record} : race.Fits n (.updating (race.request n seen) .entering)
  | looking {seen : Record} : race.Fits n (.updating (race.request n seen) .reading)
  | polling {seen : Record} {a : Attempt} (ha : a.expected = seen.version) :
      race.Fits n (.updating (race.request n seen) (.ready a))
  | writing {seen : Record} {a : Attempt} (ha : a.expected = seen.version) :
      race.Fits n (.updating (race.request n seen) (.writing a))
  | done {sighting : Sighting} (hwriter : sighting.writer = n) :
      race.Fits n (.done (.ok sighting))
  | failed {failure : Failure} : race.Fits n (.done (.error failure))

/-- What one step of the writer of a number can be: its stage and the store after it. -/
inductive Race.Moves (race : Race) (rules : Rules) (n : Nat) (s : Store) :
    Stage → Stage → Store → Prop where
  | reads : race.Moves rules n s .reading (.ready (.ok (s.get? race.id))) s
  | fails {e : StoreError} :
      race.Moves rules n s (.ready (.error e)) (.done (.error (.storage e))) s
  | absent {detail : String} :
      race.Moves rules n s (.ready (.ok none)) (.done (.ok ⟨n, .notFound, detail⟩)) s
  | starts {seen : Record} :
      race.Moves rules n s (.ready (.ok (some seen)))
        (.updating (race.request n seen) .entering) s
  | enters {seen : Record} :
      race.Moves rules n s (.updating (race.request n seen) .entering)
        (.updating (race.request n seen) .reading) s
  /-- The record is gone before the writer looks at it again. -/
  | gone {seen : Record} {detail : String} (hget : s.get? race.id = none) :
      race.Moves rules n s (.updating (race.request n seen) .reading)
        (.done (.ok ⟨n, .notFound, detail⟩)) s
  /-- The record has moved on before the writer looks at it again. -/
  | outdated {seen base : Record} {detail : String} (hget : s.get? race.id = some base)
      (hne : base.version ≠ seen.version) :
      race.Moves rules n s (.updating (race.request n seen) .reading)
        (.done (.ok ⟨n, .conflict, detail⟩)) s
  | rejected {seen base : Record} {reason : Violation} {failure : Failure}
      (hget : s.get? race.id = some base) (hversion : base.version = seen.version)
      (hcandidate : (race.request n seen).candidate rules base = .error reason) :
      race.Moves rules n s (.updating (race.request n seen) .reading) (.done (.error failure)) s
  | prepares {seen base : Record} {a : Attempt} (hget : s.get? race.id = some base)
      (hversion : base.version = seen.version) (hexpected : a.expected = seen.version)
      (hcandidate : (race.request n seen).candidate rules base = .ok a.candidate) :
      race.Moves rules n s (.updating (race.request n seen) .reading)
        (.updating (race.request n seen) (.ready a)) s
  | polls {seen : Record} {a : Attempt} :
      race.Moves rules n s (.updating (race.request n seen) (.ready a))
        (.updating (race.request n seen) (.writing a)) s
  /-- The record is gone before the write. -/
  | vanished {seen : Record} {a : Attempt} {detail : String} (hget : s.get? race.id = none) :
      race.Moves rules n s (.updating (race.request n seen) (.writing a))
        (.done (.ok ⟨n, .notFound, detail⟩)) s
  /-- The record has moved on before the write. -/
  | outrun {seen current : Record} {a : Attempt} {detail : String}
      (hget : s.get? race.id = some current) (hne : current.version ≠ a.expected) :
      race.Moves rules n s (.updating (race.request n seen) (.writing a))
        (.done (.ok ⟨n, .conflict, detail⟩)) s
  | exhausted {seen current : Record} {a : Attempt} {failure : Failure}
      (hget : s.get? race.id = some current) (hversion : current.version = a.expected)
      (hnext : nextNumber? s.lastVersion = none) :
      race.Moves rules n s (.updating (race.request n seen) (.writing a))
        (.done (.error failure)) s
  | commits {seen current : Record} {a : Attempt} {now : Instant} {v : UInt64} {detail : String}
      (hget : s.get? race.id = some current) (hversion : current.version = a.expected)
      (hnext : nextNumber? s.lastVersion = some v) :
      race.Moves rules n s (.updating (race.request n seen) (.writing a))
        (.done (.ok ⟨n, .success, detail⟩))
        (Store.enter (current.successor now a.candidate ⟨v⟩) { s with lastVersion := v }).2
  | rests {outcome : Except Failure Sighting} :
      race.Moves rules n s (.done outcome) (.done outcome) s

variable {race : Race} {rules : Rules} {n : Nat}

theorem Writer.number_step {σ : Type} (db : Database σ) (race : Race) (v : Writer) (s : σ) :
    (v.step db race s).1.number = v.number := by
  obtain ⟨number, stage⟩ := v
  cases stage <;> rfl

/-- The look at the record after the barrier. -/
theorem Race.moves_look (race : Race) (rules : Rules) (n : Nat) (seen : Record) (s : Store) :
    race.Moves rules n s (.updating (race.request n seen) .reading)
      (race.proceed n (race.request n seen)
        ((race.request n seen).afterRead rules (.ok (s.get? race.id)))) s := by
  cases hget : s.get? race.id with
  | none => exact .gone hget
  | some base =>
    change race.Moves rules n s _ (race.proceed n (race.request n seen)
      ((race.request n seen).prepare rules base 0 (rules.policy.bound - 1))) s
    by_cases hversion : base.version = seen.version
    · have hstale : (race.request n seen).stale? base = none :=
        Request.stale?_of_presented hversion.symm
      cases hcandidate : (race.request n seen).candidate rules base with
      | error reason =>
        simp only [Request.prepare, hstale, hcandidate]
        exact .rejected hget hversion hcandidate
      | ok fields =>
        simp only [Request.prepare, hstale, hcandidate]
        exact .prepares hget hversion rfl hcandidate
    · have hstale : (race.request n seen).stale? base
          = some ⟨race.id, seen.version, base, 1⟩ := by
        have hsnapshot : (race.request n seen).snapshot? = some seen.version := rfl
        have hcurrent : ¬(base.standing seen.version).isCurrent :=
          fun h => hversion (Record.isCurrent_standing.1 h)
        rw [Request.stale?, hsnapshot]
        exact if_neg hcurrent
      simp only [Request.prepare, hstale]
      exact .outdated hget hversion

/-- The write of a writer. -/
theorem Race.moves_write (race : Race) (rules : Rules) (n : Nat) (seen : Record) (a : Attempt)
    (now : Instant) (s : Store) :
    race.Moves rules n s (.updating (race.request n seen) (.writing a))
      (race.proceed n (race.request n seen) ((race.request n seen).afterWrite rules a
        (Mutation.perform ⟨race.id, a.expected, .write now a.candidate⟩ s).1))
      (Mutation.perform ⟨race.id, a.expected, .write now a.candidate⟩ s).2 := by
  have houtcome := Mutation.perform_outcome ⟨race.id, a.expected, .write now a.candidate⟩ s
  generalize (Mutation.perform ⟨race.id, a.expected, .write now a.candidate⟩ s).1 = answer,
    (Mutation.perform ⟨race.id, a.expected, .write now a.candidate⟩ s).2 = s' at houtcome
  cases houtcome with
  | missing hget => exact .vanished hget
  | stale hget hne => exact .outrun hget hne
  | spent hget hversion _ hnext => exact .exhausted hget hversion hnext
  | written hget hversion hdeed hnext =>
    obtain ⟨rfl, rfl⟩ := Deed.write.inj hdeed
    exact .commits hget hversion hnext
  | removed _ _ hdeed => contradiction

/-- What one step of a writer can be. -/
theorem Writer.step_moves {v : Writer} (h : race.Fits v.number v.stage) (rules : Rules)
    (w : World) :
    race.Moves rules v.number w.store v.stage
      (v.step ⟨rules, World.surroundings⟩ race w).1.stage
      (v.step ⟨rules, World.surroundings⟩ race w).2.store := by
  obtain ⟨number, stage⟩ := v
  dsimp only at h
  cases h with
  | reading => exact .reads
  | @ready seen =>
    match seen with
    | .error e => exact .fails
    | .ok none => exact .absent
    | .ok (some seen) => exact .starts
  | entering => exact .enters
  | @looking seen => exact race.moves_look rules number seen w.store
  | polling => exact .polls
  | @writing seen a => exact race.moves_write rules number seen a w.instant w.store
  | done => exact .rests
  | failed => exact .rests

section Moves

variable {s s' : Store} {stage stage' : Stage}

/-- A writer goes through its stages whatever it finds. -/
theorem Race.Moves.fits (h : race.Moves rules n s stage stage' s') (hfits : race.Fits n stage) :
    race.Fits n stage' := by
  cases h with
  | reads => exact .ready
  | fails | rejected | exhausted => exact .failed
  | absent | gone | outdated | vanished | outrun | commits => exact .done rfl
  | starts => exact .entering
  | enters => exact .looking
  | prepares _ _ hexpected => exact .polling hexpected
  | polls =>
    generalize hstage : Stage.updating _ _ = stage at hfits
    cases hfits with
    | polling ha =>
      obtain ⟨hrequest, hphase⟩ := Stage.updating.inj hstage
      obtain rfl := Phase.ready.inj hphase
      rw [hrequest]
      exact .writing ha
    | _ => simp at hstage
  | rests => exact hfits

/-- No step leads back to the read before the barrier. -/
theorem Race.Moves.not_reading (h : race.Moves rules n s stage stage' s') :
    stage' ≠ .reading := by
  rintro rfl
  cases h

/-- A version that a writer holds was held before, or has just been read. -/
theorem Race.Moves.held (h : race.Moves rules n s stage stage' s') {v : Version}
    (hv : stage'.held? = some v) :
    stage.held? = some v ∨ stage = .reading ∧ ∃ r, s.get? race.id = some r ∧ r.version = v := by
  cases h with
  | reads =>
    cases hget : s.get? race.id with
    | none =>
      rw [hget] at hv
      contradiction
    | some r =>
      rw [hget] at hv
      exact .inr ⟨rfl, r, rfl, Option.some.inj hv⟩
  | starts | enters | prepares | polls => exact .inl hv
  | fails | absent | gone | outdated | rejected | vanished | outrun | exhausted | commits | rests =>
    contradiction

/-- A step leaves the store alone and brings no success, or it is a commit on top of the version
    that the writer holds. -/
theorem Race.Moves.store (h : race.Moves rules n s stage stage' s')
    (hfits : race.Fits n stage) :
    (s' = s ∧ stage'.hasWon = stage.hasWon) ∨
      ∃ (m : Mutation) (r : Record), m.id = race.id ∧ stage.held? = some m.expected ∧
        m.perform s = (.ok (.committed r), s') := by
  cases h with
  | @commits seen current a now v detail hget hversion hnext =>
    have hexpected : seen.version = a.expected := by
      generalize hstage : Stage.updating _ _ = stage at hfits
      cases hfits with
      | writing ha =>
        obtain ⟨hrequest, hphase⟩ := Stage.updating.inj hstage
        obtain rfl := Phase.writing.inj hphase
        have hversions := congrArg Request.expected hrequest
        exact (Option.some.inj hversions).trans ha.symm
      | _ => simp at hstage
    have houtcome : Mutation.Outcome ⟨race.id, a.expected, .write now a.candidate⟩ s _ _ :=
      .written hget hversion rfl hnext
    exact .inr ⟨_, _, rfl, congrArg some hexpected, houtcome.perform_eq⟩
  | reads | fails | absent | starts | enters | gone | outdated | rejected | prepares | polls
  | vanished | outrun | exhausted | rests => exact .inl ⟨rfl, rfl⟩

end Moves

end Simulation

-- ============================================================================
-- The ends of the writers
-- ============================================================================

namespace Database

open Simulation (Race Writer Sighting Report)

/-- The writers are done, and this is what they saw. -/
def Saw (writers : List Writer) (details : List Sighting) : Prop :=
  writers.map Writer.outcome? = details.map fun sighting => some (.ok sighting)

theorem Saw.exists_of_writer {writers : List Writer} {details : List Sighting}
    (h : Saw writers details) {v : Writer} (hv : v ∈ writers) :
    ∃ sighting ∈ details, v.outcome? = some (.ok sighting) := by
  have hmem := List.mem_map_of_mem (f := Writer.outcome?) hv
  rw [h] at hmem
  obtain ⟨sighting, hsighting, heq⟩ := List.mem_map.1 hmem
  exact ⟨sighting, hsighting, heq.symm⟩

theorem Saw.exists_of_sighting {writers : List Writer} {details : List Sighting}
    (h : Saw writers details) {sighting : Sighting} (hsighting : sighting ∈ details) :
    ∃ v ∈ writers, v.outcome? = some (.ok sighting) := by
  have hmem : some (.ok sighting) ∈ writers.map Writer.outcome? := by
    rw [h]
    exact List.mem_map.2 ⟨sighting, hsighting, rfl⟩
  exact List.mem_map.1 hmem

theorem exists_none_of_mapM {α β : Type} {f : α → Option β} {xs : List α}
    (h : xs.mapM f = none) : ∃ x ∈ xs, f x = none := by
  induction xs with
  | nil => contradiction
  | cons x xs ih =>
    cases hx : f x with
    | none => exact ⟨x, List.mem_cons_self, hx⟩
    | some y =>
      cases hrest : xs.mapM f with
      | none =>
        obtain ⟨x', hx', hnone⟩ := ih hrest
        exact ⟨x', List.mem_cons_of_mem x hx', hnone⟩
      | some ys =>
        rw [List.mapM_cons, hx, hrest] at h
        contradiction

theorem saw_of_mapM {writers : List Writer} {outcomes : List (Except Failure Sighting)}
    {details : List Sighting} (houtcomes : writers.mapM Writer.outcome? = some outcomes)
    (hdetails : outcomes.mapM (fun outcome => outcome) = .ok details) : Saw writers details := by
  induction writers generalizing outcomes details with
  | nil =>
    obtain rfl := Option.some.inj houtcomes
    obtain rfl := Except.ok.inj hdetails
    rfl
  | cons v writers ih =>
    rw [List.mapM_cons] at houtcomes
    obtain ⟨outcome, houtcome, hbind⟩ := Option.bind_eq_some_iff.1 houtcomes
    obtain ⟨rest, hrest, hcons⟩ := Option.bind_eq_some_iff.1 hbind
    obtain rfl := Option.some.inj hcons
    rw [List.mapM_cons] at hdetails
    obtain ⟨sighting, rfl, hbind'⟩ := except_bind_eq_ok_iff.1 hdetails
    obtain ⟨later, hlater, hcons'⟩ := except_bind_eq_ok_iff.1 hbind'
    obtain rfl := Except.ok.inj hcons'
    have htail : writers.map Writer.outcome? = later.map _ := ih hrest hlater
    rw [Saw, List.map_cons, List.map_cons, houtcome, htail]

/-- A race goes on, or ends in a report of what all have seen, or in the failure of one. -/
theorem gather_cases (race : Race) (writers : List Writer) :
    (Progress.gather race writers = .racing race writers ∧ ∃ v ∈ writers, v.outcome? = none) ∨
      (∃ details, Progress.gather race writers
          = .ended (.ok (.report (.of race.id details))) ∧ Saw writers details) ∨
        ∃ failure, Progress.gather race writers = .ended (.error failure) ∧
          ∃ v ∈ writers, v.outcome? = some (.error failure) := by
  rw [Progress.gather]
  cases houtcomes : writers.mapM Writer.outcome? with
  | none => exact .inl ⟨rfl, exists_none_of_mapM houtcomes⟩
  | some outcomes =>
    cases hdetails : (outcomes.mapM fun outcome => outcome : Except Failure (List Sighting)) with
    | ok details =>
      simp only [hdetails]
      exact .inr (.inl ⟨details, rfl, saw_of_mapM houtcomes hdetails⟩)
    | error failure =>
      obtain ⟨outcome, hmem, rfl⟩ := exists_error_of_mapM hdetails
      obtain ⟨v, hv, houtcome⟩ := exists_of_mem_mapM houtcomes hmem
      simp only [hdetails]
      exact .inr (.inr ⟨failure, rfl, v, hv, houtcome⟩)

end Database

end VersionedStore
