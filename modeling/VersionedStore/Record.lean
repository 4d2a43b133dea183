/-
  VersionedStore.Record

  Records: fields and a version token that only ever change together.  A write
  is admissible if the token that it presents is the record's; times and fields
  have no say in that.
-/
import VersionedStore.Fields
import VersionedStore.Identity
import VersionedStore.Instant.Basic

namespace VersionedStore

/-- One committed state of a record. -/
structure Record where
  id : RecordId
  fields : Fields
  version : Version
  createdAt : Instant
  /-- When the record was last written; `none` until its first write. -/
  lastModified : Option Instant
deriving DecidableEq

namespace Record

/-- A record as it is created. -/
def create (now : Instant) (id : RecordId) (fields : Fields) (version : Version) : Record :=
  ⟨id, fields, version, now, none⟩

/-- The state that follows this one when new fields are written. -/
def successor (r : Record) (now : Instant) (fields : Fields) (version : Version) : Record :=
  { r with fields, version, lastModified := some now }

/-- Equality in which floats are compared by value. -/
def agrees (r s : Record) : Bool :=
  r.id == s.id && r.fields.agrees s.fields && r.version == s.version
    && r.createdAt == s.createdAt && r.lastModified == s.lastModified

/-- How a presented token stands to a record. -/
inductive Standing where
  /-- The token is the record's. -/
  | current
  /-- The record has moved on from the token. -/
  | stale (expected actual : Version)
deriving DecidableEq, Repr

/-- How a presented token stands to the record. -/
def standing (r : Record) (expected : Version) : Standing :=
  if r.version = expected then .current else .stale expected r.version

/-- Whether the token is the record's. -/
def Standing.isCurrent : Standing → Bool
  | current => true
  | stale .. => false

/-- The verdict with both tokens. -/
def Standing.text : Standing → String
  | current => "Current"
  | stale expected actual =>
    "Stale \x7b expected: " ++ expected.typedText ++ ", actual: " ++ actual.typedText ++ " \x7d"

theorem isCurrent_standing {r : Record} {expected : Version} :
    (r.standing expected).isCurrent = true ↔ r.version = expected := by
  unfold standing
  split <;> simp_all [Standing.isCurrent]

end Record

end VersionedStore
