/-
  VersionedStore.Update.Request

  Update requests, and what a request makes of the record that it finds.

  A snapshot change goes with the version that the caller has read; if the record
  is at another one, the request is refused before anything is written.  A
  relative change goes with whatever version it meets, also if the caller named
  one.
-/
import VersionedStore.Change
import VersionedStore.Constraints
import VersionedStore.Update.Outcome
import VersionedStore.Update.Policy

namespace VersionedStore.Update

/-- The rules that requests are run under. -/
structure Rules where
  policy : RetryPolicy
  constraints : Constraints
deriving DecidableEq

/-- A request to change one record. -/
structure Request where
  id : RecordId
  /-- The version that the caller has read, if it was given. -/
  expected : Option Version
  change : Change
  guard : Guard
deriving DecidableEq

namespace Request

/-- A change worked out from a version. -/
def new (id : RecordId) (expected : Version) (change : Change) : Request :=
  ⟨id, some expected, change, .never⟩

/-- New fields for all the old ones, worked out from a version. -/
def replace (id : RecordId) (expected : Version) (fields : Fields) : Request :=
  new id expected (.replace fields)

/-- New values for some fields, worked out from a version. -/
def patch (id : RecordId) (expected : Version) (fields : Fields) : Request :=
  new id expected (.patch fields)

/-- An amount to add to an integer field, whatever the version. -/
def adjust (id : RecordId) (field : String) (delta : Int64) : Request :=
  ⟨id, none, .adjust ⟨field, delta⟩, .never⟩

/-- The version that holds the request to the state that the caller has read. -/
def snapshot? (req : Request) : Option Version :=
  if req.change.isRetryable then none else req.expected

/-- The version that a write on top of `base` presents. -/
def presented (req : Request) (base : Record) : Version :=
  req.snapshot?.getD base.version

/-- The conflict of a request with a record that has moved on from the caller's version. -/
def stale? (req : Request) (base : Record) : Option ConflictReport :=
  match req.snapshot? with
  | some expected =>
    if (base.standing expected).isCurrent then none else some ⟨req.id, expected, base, 1⟩
  | none => none

/-- The fields that the request wants to write on top of `base`. -/
def candidate (req : Request) (rules : Rules) (base : Record) : Except Violation Fields := do
  let fields ← req.change.apply base.fields
  rules.constraints.validate fields
  return fields

-- ============================================================================
-- Laws
-- ============================================================================

theorem candidate_eq_ok_iff {req : Request} {rules : Rules} {base : Record} {fields : Fields} :
    req.candidate rules base = .ok fields ↔
      req.change.apply base.fields = .ok fields ∧ rules.constraints.validate fields = .ok () := by
  unfold candidate
  cases happly : req.change.apply base.fields with
  | error e => simp [bind, Except.bind]
  | ok candidate =>
    cases hvalid : rules.constraints.validate candidate with
    | error e =>
      simp only [bind, Except.bind, hvalid, Except.ok.injEq, reduceCtorEq, false_iff, not_and]
      rintro rfl
      simp [hvalid]
    | ok u =>
      simp only [bind, Except.bind, hvalid, pure, Except.pure, Except.ok.injEq]
      constructor
      · rintro rfl
        exact ⟨rfl, hvalid⟩
      · exact fun h => h.1

theorem candidate_eq_error_iff {req : Request} {rules : Rules} {base : Record}
    {reason : Violation} :
    req.candidate rules base = .error reason ↔
      req.change.apply base.fields = .error reason ∨
        ∃ fields, req.change.apply base.fields = .ok fields ∧
          rules.constraints.validate fields = .error reason := by
  unfold candidate
  cases happly : req.change.apply base.fields with
  | error e => simp [bind, Except.bind]
  | ok candidate =>
    cases hvalid : rules.constraints.validate candidate with
    | error e => simp [bind, Except.bind, hvalid]
    | ok u => simp [bind, Except.bind, hvalid, pure, Except.pure]

/-- A base that is not stale is at the version that a write on top of it presents. -/
theorem presented_of_stale?_eq_none {req : Request} {base : Record}
    (h : req.stale? base = none) : req.presented base = base.version := by
  unfold stale? at h
  unfold presented
  split at h
  next expected hsnapshot =>
    split at h
    next hcurrent =>
      rw [hsnapshot, Option.getD_some]
      exact (Record.isCurrent_standing.1 hcurrent).symm
    next => contradiction
  next hsnapshot => rw [hsnapshot, Option.getD_none]

end Request

end VersionedStore.Update
