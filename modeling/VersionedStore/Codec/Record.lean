/-
  VersionedStore.Codec.Record

  Records and the answers to writes as JSON.
-/
import VersionedStore.Codec.Fields
import VersionedStore.Instant.Written
import VersionedStore.Store.Access

namespace VersionedStore

variable [Instant.Codec]

namespace Instant

/-- The instant as text. -/
def toJson (t : Instant) : Json :=
  .string (Codec.write t)

/-- The instant that a document stands for. -/
def ofDocument : Document → Decoded Instant
  | .string s =>
    match Codec.read s with
    | .ok t => .ok t
    | .error fault => .error (.invalidTime fault)
  | d => d.mismatch .time

end Instant

namespace Record

/-- The record as a JSON object. -/
def toJson (r : Record) : Json :=
  .object [("id", r.id.toJson), ("fields", r.fields.toJson), ("version", r.version.toJson),
    ("created_at", r.createdAt.toJson),
    ("last_modified", Json.ofOption Instant.toJson r.lastModified)]

/-- The parts of a record that have been read so far. -/
structure Parts where
  id : Option RecordId
  fields : Option Fields
  version : Option Version
  createdAt : Option Instant
  lastModified : Option Instant

/-- How a record is read. -/
def shape : Shape Parts where
  name := "Record"
  strict := false
  fields := [
    .of "id" RecordId.ofDocument (fun id p => { p with id := some id }) false,
    .of "fields" Fields.ofDocument (fun fields p => { p with fields := some fields }) false,
    .of "version" Version.ofDocument (fun version p => { p with version := some version }) false,
    .of "created_at" Instant.ofDocument (fun t p => { p with createdAt := some t }) false,
    .of "last_modified" (Document.optional Instant.ofDocument)
      (fun t p => { p with lastModified := t }) false]

/-- The record that a document stands for. -/
def ofDocument (d : Document) : Decoded Record := do
  let p ← shape.read .malformed ⟨none, none, none, none, none⟩ d
  return {
    id := ← required "id" p.id
    fields := ← required "fields" p.fields
    version := ← required "version" p.version
    createdAt := ← required "created_at" p.createdAt
    lastModified := p.lastModified }

end Record

/-- The answer as a JSON object, with the record that it carries. -/
def WriteOutcome.toJson : WriteOutcome → Json
  | .committed r => .object [("outcome", .string "committed"), ("record", r.toJson)]
  | .versionMismatch r => .object [("outcome", .string "version_mismatch"), ("record", r.toJson)]
  | .notFound => .object [("outcome", .string "not_found")]

end VersionedStore
