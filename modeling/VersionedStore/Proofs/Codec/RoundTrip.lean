/-
  VersionedStore.Proofs.Codec.RoundTrip

  What is written as JSON reads back as what it was.

  The text of a JSON value reads back as the document of the value, so each round
  trip is decided on documents.  The type of a field's value is told by the form of
  its document alone.  JSON has no floats but the finite ones: any other is written
  as null, and so it comes back (`Value.settled`).

  What is taken for granted is that the text of a finite float spells it
  (`Json.FloatCodec.Lawful`) and that the text of an ordinary instant names it
  (`Instant.Codec.Lawful`).  Nothing else is asked of the two codecs; strings, integers
  and the structure around them are read back here.
-/
import VersionedStore.Codec.Change
import VersionedStore.Codec.Config
import VersionedStore.Codec.Record
import VersionedStore.Proofs.Document.Decode
import VersionedStore.Proofs.Instant.Text
import VersionedStore.Proofs.Json.Reading
import VersionedStore.Proofs.Maps

namespace VersionedStore

/-- Whether a decoder makes this of the texts of a JSON value. -/
def Json.ReadsAs [FloatCodec] {α : Type} (v : Json) (decode : Document → Decoded α) (a : α) :
    Prop :=
  ∀ text ∈ v.texts, (Json.read text).decode decode = .ok a

theorem Json.readsAs_of_document [FloatCodec] (hfloats : FloatCodec.Lawful) {α : Type} {v : Json}
    {decode : Document → Decoded α} {a : α} {depth : Nat} (hreadable : Readable v depth)
    (hdepth : depth ≤ maxDepth) (h : decode (document v) = .ok a) : v.ReadsAs decode a := by
  intro text htext
  rw [read_of_mem_texts hfloats (hreadable.mono hdepth) htext, Reading.decode, h]
  rfl

-- ============================================================================
-- Values and fields
-- ============================================================================

namespace Value

/-- What a value comes back as: itself, but null for a float that is not finite. -/
def settled : Value → Value
  | float x => if x.isFinite then float x else null
  | v => v

/-- Whether a value is no float but a finite one. -/
def IsSettled (v : Value) : Prop :=
  ∀ x, v = float x → x.isFinite = true

theorem settled_eq_self {v : Value} (h : v.IsSettled) : v.settled = v := by
  cases v with
  | float x => rw [settled, h x rfl, if_pos rfl]
  | _ => rfl

theorem readable_toJson (v : Value) : Json.Readable v.toJson 0 := by
  cases v with
  | null => exact Json.readable_null 0
  | bool b => exact ⟨trivial, Nat.le_refl _⟩
  | int n => exact Json.readable_int64 n 0
  | string s => exact Json.readable_string s 0
  | float x =>
    simp only [toJson, Json.ofDouble]
    split
    next hfinite => exact ⟨hfinite, Nat.le_refl _⟩
    next => exact Json.readable_null 0

/-- The type of a value is told from the form of its document. -/
theorem ofDocument_toJson (v : Value) : ofDocument (Json.document v.toJson) = .ok v.settled := by
  have hwhole := Json.isWhole_document v.toJson
  unfold ofDocument
  rw [hwhole, Bool.not_true, if_neg Bool.false_ne_true]
  cases v with
  | int n =>
    have hword : int64? n.toInt = some n := int64?_eq_some_iff.2 rfl
    simp only [toJson, Json.document, hword]
    rfl
  | float x =>
    simp only [toJson, Json.ofDouble, settled]
    cases x.isFinite <;> rfl
  | _ => rfl

end Value

namespace Fields

/-- What fields come back as: each of them, but null for a float that is not finite. -/
def settled (fs : Fields) : Fields :=
  .ofList (fs.toList.map fun m => (m.1, m.2.settled))

/-- Whether there is no float in the fields but finite ones. -/
def AreSettled (fs : Fields) : Prop :=
  ∀ name v, fs.get? name = some v → v.IsSettled

theorem get?_settled (fs : Fields) (name : String) :
    fs.settled.get? name = (fs.get? name).map Value.settled := by
  have hordered : (fs.toList.map fun m => (m.1, m.2.settled)).Pairwise fun a b => a.1 < b.1 :=
    List.pairwise_map.2 fs.ordered_toList
  refine Option.ext fun v => ?_
  rw [settled, get?, ofList, getElem?_ofList_iff hordered, List.mem_map, Option.map_eq_some_iff]
  constructor
  · rintro ⟨⟨_, w⟩, hmem, ⟨⟩⟩
    exact ⟨w, mem_toList_iff.1 hmem, rfl⟩
  · rintro ⟨w, hget, rfl⟩
    exact ⟨(name, w), mem_toList_iff.2 hget, rfl⟩

theorem settled_eq_self {fs : Fields} (h : fs.AreSettled) : fs.settled = fs := by
  ext name v
  rw [get?_settled, Option.map_eq_some_iff]
  constructor
  · rintro ⟨w, hget, rfl⟩
    rwa [Value.settled_eq_self (h name w hget)]
  · intro hget
    exact ⟨v, hget, Value.settled_eq_self (h name v hget)⟩

theorem readable_toJson (fs : Fields) : Json.Readable fs.toJson 1 := by
  refine Json.readable_object fun m hm => ?_
  obtain ⟨⟨name, v⟩, -, rfl⟩ := List.mem_map.1 hm
  exact v.readable_toJson

theorem ofDocument_toJson (fs : Fields) :
    ofDocument (Json.document fs.toJson) = .ok fs.settled := by
  have hmap : Document.mapOf Value.ofDocument (Json.document fs.toJson) =
      .ok (fs.toList.map fun m => (m.1, m.2.settled)) := by
    have h := Document.mapOf_map Value.ofDocument (fun v => Json.document v.toJson) Value.settled
      (l := fs.toList) fun m _ => Value.ofDocument_toJson m.2
    rw [toJson, Json.document, Json.memberDocuments_eq_map, List.map_map]
    exact h
  rw [ofDocument, hmap]
  rfl

end Fields

-- ============================================================================
-- Numbers of words
-- ============================================================================

theorem int64_toInt (n : Int64) : Document.int64 (.integer n.toInt) = .ok n := by
  have hword : int64? n.toInt = some n := int64?_eq_some_iff.2 rfl
  rw [Document.int64, Document.fitting, hword]

theorem uint32_toNat (n : UInt32) : Document.uint32 (.integer n.toNat) = .ok n := by
  have hword : uint32? n.toNat = some n := uint32?_eq_some_iff.2 rfl
  rw [Document.uint32, Document.fitting, hword]

theorem uint64_toNat (n : UInt64) : Document.uint64 (.integer n.toNat) = .ok n := by
  have hword : uint64? n.toNat = some n := uint64?_eq_some_iff.2 rfl
  rw [Document.uint64, Document.fitting, hword]

theorem RecordId.ofDocument_toJson (id : RecordId) :
    ofDocument (Json.document id.toJson) = .ok id := by
  have h : Document.uint64 (Json.document id.toJson) = .ok id.raw := uint64_toNat id.raw
  rw [ofDocument, h]
  rfl

theorem Version.ofDocument_toJson (v : Version) :
    ofDocument (Json.document v.toJson) = .ok v := by
  have h : Document.uint64 (Json.document v.toJson) = .ok v.raw := uint64_toNat v.raw
  rw [ofDocument, h]
  rfl

-- ============================================================================
-- Rules and configurations
-- ============================================================================

theorem minimumsOfDocument_toJson (m : Std.ExtTreeMap String Int64) :
    minimumsOfDocument (Json.document (minimumsToJson m)) = .ok m := by
  have hmap : Document.mapOf Document.int64 (Json.document (minimumsToJson m)) = .ok m.toList := by
    have h := Document.mapOf_map Document.int64 (fun n : Int64 => .integer n.toInt) id
      (l := m.toList) fun p _ => int64_toInt p.2
    have hid : (m.toList.map fun p => (p.1, id p.2)) = m.toList := List.map_id _
    rw [hid] at h
    rw [minimumsToJson, Json.document, Json.memberDocuments_eq_map, List.map_map]
    exact h
  rw [minimumsOfDocument, hmap]
  exact congrArg Except.ok (ofList_toList m)

theorem names_toJson (names : List String) :
    Document.listOf Document.text (Json.document (namesToJson names)) = .ok names := by
  have hlist := Document.listOf_map Document.text (fun s : String => .string s) id (l := names)
    fun _ _ => rfl
  rw [List.map_id] at hlist
  rw [namesToJson, Json.document, Json.documents_eq_map, List.map_map]
  exact hlist

theorem readable_minimums (m : Std.ExtTreeMap String Int64) :
    Json.Readable (minimumsToJson m) 1 := by
  refine Json.readable_object fun p hp => ?_
  obtain ⟨⟨name, n⟩, -, rfl⟩ := List.mem_map.1 hp
  exact Json.readable_int64 n 0

theorem readable_names (names : List String) : Json.Readable (namesToJson names) 1 := by
  refine Json.readable_array fun v hv => ?_
  obtain ⟨name, -, rfl⟩ := List.mem_map.1 hv
  exact Json.readable_string name 0

namespace Constraints

theorem ofDocument_toJson (c : Constraints) : ofDocument (Json.document c.toJson) = .ok c :=
  Shape.read_object shape .malformed ∅ (by decide)
    (.cons (Shape.read_of (minimumsOfDocument_toJson c.minimums))
      (.cons (Shape.read_of (names_toJson c.required)) .nil))

theorem readable_toJson (c : Constraints) : Json.Readable c.toJson 2 := by
  refine Json.readable_object (List.forall_mem_cons.2 ⟨?_, List.forall_mem_singleton.2 ?_⟩)
  · exact readable_minimums c.minimums
  · exact readable_names c.required

end Constraints

theorem RetryConfig.ofDocument_toJson (surplus : Surplus) (c : RetryConfig) :
    ofDocument surplus (Json.document c.toJson) = .ok c :=
  Shape.read_object shape surplus .default (by decide)
    (.cons (Shape.read_of (uint32_toNat c.maxAttempts))
      (.cons (Shape.read_of (uint64_toNat c.backoffMillis)) .nil))

theorem RetryConfig.readable_toJson (c : RetryConfig) : Json.Readable c.toJson 1 := by
  refine Json.readable_object (List.forall_mem_cons.2 ⟨?_, List.forall_mem_singleton.2 ?_⟩)
  · exact Json.readable_ofNat (c.maxAttempts.toNat_lt.trans (by decide)) 0
  · exact Json.readable_ofNat c.backoffMillis.toNat_lt 0

namespace Config

theorem ofDocument_toJson (surplus : Surplus) (c : Config) :
    ofDocument surplus (Json.document c.toJson) = .ok c :=
  Shape.read_object (shape surplus) surplus default
    (show ["retry", "constraints", "required"].Nodup by decide)
    (.cons (Shape.read_of (c.retry.ofDocument_toJson surplus))
      (.cons (Shape.read_of (minimumsOfDocument_toJson c.minimums))
        (.cons (Shape.read_of (names_toJson c.required)) .nil)))

theorem readable_toJson (c : Config) : Json.Readable c.toJson 2 := by
  refine Json.readable_object fun m hm => ?_
  simp only [List.mem_cons, List.not_mem_nil, or_false] at hm
  rcases hm with rfl | rfl | rfl
  · exact c.retry.readable_toJson
  · exact readable_minimums c.minimums
  · exact readable_names c.required

end Config

-- ============================================================================
-- Changes
-- ============================================================================

theorem Adjustment.ofDocument_toJson (surplus : Surplus) (a : Adjustment) :
    ofDocument surplus (Json.document a.toJson) = .ok a := by
  have h : shape.read surplus ⟨none, none⟩ (Json.document a.toJson) =
      .ok ⟨some a.field, some a.delta⟩ :=
    Shape.read_object shape surplus ⟨none, none⟩ (by decide)
      (.cons (Shape.read_of rfl) (.cons (Shape.read_of (int64_toInt a.delta)) .nil))
  rw [ofDocument, h]
  rfl

theorem Adjustment.readable_toJson (a : Adjustment) : Json.Readable a.toJson 1 := by
  refine Json.readable_object (List.forall_mem_cons.2 ⟨?_, List.forall_mem_singleton.2 ?_⟩)
  · exact Json.readable_string a.field 0
  · exact Json.readable_int64 a.delta 0

namespace Change

/-- What a change comes back as: itself, but with null for a float that is not finite. -/
def settled : Change → Change
  | replace fields => replace fields.settled
  | patch fields => patch fields.settled
  | adjust a => adjust a

/-- Whether there is no float in the change but finite ones. -/
def IsSettled : Change → Prop
  | replace fields | patch fields => fields.AreSettled
  | adjust _ => True

theorem settled_eq_self {c : Change} (h : c.IsSettled) : c.settled = c := by
  cases c with
  | replace fields => exact congrArg replace (Fields.settled_eq_self h)
  | patch fields => exact congrArg patch (Fields.settled_eq_self h)
  | adjust a => rfl

/-- The change as a JSON object with its content in front of its mode. -/
def toJsonFlipped (c : Change) : Json :=
  .object [(contentKey, c.contentJson), (modeKey, .string c.mode.name)]

theorem readable_contentJson (c : Change) : Json.Readable c.contentJson 1 := by
  cases c with
  | replace fields => exact fields.readable_toJson
  | patch fields => exact fields.readable_toJson
  | adjust a => exact a.readable_toJson

theorem readable_toJson (c : Change) : Json.Readable c.toJson 2 := by
  refine Json.readable_object (List.forall_mem_cons.2 ⟨?_, List.forall_mem_singleton.2 ?_⟩)
  · exact Json.readable_string _ 1
  · exact c.readable_contentJson

theorem readable_toJsonFlipped (c : Change) : Json.Readable c.toJsonFlipped 2 := by
  refine Json.readable_object (List.forall_mem_cons.2 ⟨?_, List.forall_mem_singleton.2 ?_⟩)
  · exact c.readable_contentJson
  · exact Json.readable_string _ 1

theorem ofContent_contentJson (surplus : Surplus) (c : Change) :
    ofContent surplus (Json.document c.contentJson) c.mode = .ok c.settled := by
  cases c with
  | replace fields =>
    rw [mode, ofContent, contentJson, Fields.ofDocument_toJson]
    rfl
  | patch fields =>
    rw [mode, ofContent, contentJson, Fields.ofDocument_toJson]
    rfl
  | adjust a =>
    rw [mode, ofContent, contentJson, Adjustment.ofDocument_toJson]
    rfl

theorem ofMember_name (m : Mode) : Mode.ofMember (.string m.name) = .ok m := by
  rw [Mode.ofMember, Mode.named, Mode.ofName?_name]

theorem ofDocument_toJson (c : Change) : ofDocument (Json.document c.toJson) = .ok c.settled := by
  change ofMembers .closed
    [(modeKey, .string c.mode.name), (contentKey, Json.document c.contentJson)] = _
  rw [ofMembers, if_pos rfl, ofMember_name]
  change (if contentKey = modeKey then Except.error (.duplicateField modeKey)
    else ofContent .malformed (Json.document c.contentJson) c.mode >>= _) = _
  rw [if_neg (by decide), ofContent_contentJson]
  rfl

theorem ofDocument_toJsonFlipped (c : Change) :
    ofDocument (Json.document c.toJsonFlipped) = .ok c.settled := by
  change ofMembers .closed
    [(contentKey, Json.document c.contentJson), (modeKey, .string c.mode.name)] = _
  rw [ofMembers, if_neg (by decide), Json.isWhole_document, Bool.not_true,
    if_neg Bool.false_ne_true]
  rw [if_neg (by decide), ofMember_name]
  change (ofContent .refused (Json.document c.contentJson) c.mode >>= _) = _
  rw [ofContent_contentJson]
  rfl

end Change

-- ============================================================================
-- Records
-- ============================================================================

theorem Instant.ofDocument_toJson [Codec] (htimes : Codec.Lawful) {t : Instant}
    (h : t.Ordinary) : ofDocument (Json.document t.toJson) = .ok t := by
  rw [toJson, Json.document, ofDocument, htimes t h]

namespace Record

/-- What a record comes back as: itself, but with null for a float that is not finite. -/
def settled (r : Record) : Record :=
  { r with fields := r.fields.settled }

theorem settled_eq_self {r : Record} (h : r.fields.AreSettled) : r.settled = r := by
  rw [settled, Fields.settled_eq_self h]

/-- Whether the times of the record are ordinary. -/
structure Timed (r : Record) : Prop where
  created : r.createdAt.Ordinary
  modified : ∀ t ∈ r.lastModified, t.Ordinary

theorem optional_toJson [Instant.Codec] (htimes : Instant.Codec.Lawful) {t : Option Instant}
    (h : ∀ u ∈ t, u.Ordinary) :
    Document.optional Instant.ofDocument (Json.document (Json.ofOption Instant.toJson t)) =
      .ok t := by
  cases t with
  | none => rfl
  | some u =>
    have hu : Instant.ofDocument (.string (Instant.Codec.write u)) = .ok u :=
      Instant.ofDocument_toJson htimes (h u rfl)
    change (Instant.ofDocument (.string (Instant.Codec.write u)) >>= fun u => .ok (some u)) = _
    rw [hu]
    rfl

theorem ofDocument_toJson [Instant.Codec] (htimes : Instant.Codec.Lawful) {r : Record}
    (h : r.Timed) : ofDocument (Json.document r.toJson) = .ok r.settled := by
  have hread : shape.read .malformed ⟨none, none, none, none, none⟩ (Json.document r.toJson) =
      .ok ⟨some r.id, some r.fields.settled, some r.version, some r.createdAt, r.lastModified⟩ :=
    Shape.read_object shape .malformed ⟨none, none, none, none, none⟩
      (show ["id", "fields", "version", "created_at", "last_modified"].Nodup by decide)
      (.cons (Shape.read_of (r.id.ofDocument_toJson))
        (.cons (Shape.read_of r.fields.ofDocument_toJson)
          (.cons (Shape.read_of (r.version.ofDocument_toJson))
            (.cons (Shape.read_of (Instant.ofDocument_toJson htimes h.created))
              (.cons (Shape.read_of (optional_toJson htimes h.modified)) .nil)))))
  rw [ofDocument, hread]
  rfl

theorem readable_toJson [Instant.Codec] (r : Record) : Json.Readable r.toJson 2 := by
  refine Json.readable_object fun m hm => ?_
  simp only [List.mem_cons, List.not_mem_nil, or_false] at hm
  rcases hm with rfl | rfl | rfl | rfl | rfl
  · exact Json.readable_ofNat r.id.raw.toNat_lt 1
  · exact r.fields.readable_toJson
  · exact Json.readable_ofNat r.version.raw.toNat_lt 1
  · exact Json.readable_string _ 1
  · cases r.lastModified with
    | none => exact Json.readable_null 1
    | some t => exact Json.readable_string _ 1

end Record

-- ============================================================================
-- Round trips
-- ============================================================================

section

variable [Json.FloatCodec] (hfloats : Json.FloatCodec.Lawful)

/-- What is made of the texts of fields, changes, rules, configurations and records. -/
structure RoundTrip [Instant.Codec] : Prop where
  /-- Fields without an infinity or a NaN come back as they were. -/
  fields : ∀ fs : Fields, fs.AreSettled → fs.toJson.ReadsAs Fields.ofDocument fs
  /-- So do changes, whether their mode or their content stands first. -/
  change : ∀ c : Change, c.IsSettled →
    c.toJson.ReadsAs Change.ofDocument c ∧ c.toJsonFlipped.ReadsAs Change.ofDocument c
  /-- So do rules. -/
  constraints : ∀ c : Constraints, c.toJson.ReadsAs Constraints.ofDocument c
  /-- So do configurations, whatever becomes of members that have no place. -/
  config : ∀ (c : Config) (surplus : Surplus), c.toJson.ReadsAs (Config.ofDocument surplus) c
  /-- So do records whose times are ordinary. -/
  record : ∀ r : Record, r.Timed → r.fields.AreSettled → r.toJson.ReadsAs Record.ofDocument r
  /-- With an infinity or a NaN, fields still come back, if not quite as they were. -/
  fields_settled : ∀ fs : Fields, fs.toJson.ReadsAs Fields.ofDocument fs.settled
  /-- So do changes, and their mode is what it was. -/
  change_settled : ∀ c : Change, c.settled.mode = c.mode ∧
    c.toJson.ReadsAs Change.ofDocument c.settled ∧
      c.toJsonFlipped.ReadsAs Change.ofDocument c.settled
  /-- So do records, and all but their fields is what it was. -/
  record_settled : ∀ r : Record, r.Timed → r.toJson.ReadsAs Record.ofDocument r.settled
  /-- The infinities and NaNs have become null; no other field has changed. -/
  get?_settled : ∀ (fs : Fields) (name : String),
    fs.settled.get? name = (fs.get? name).map Value.settled

include hfloats

theorem Fields.reads_toJson (fs : Fields) : fs.toJson.ReadsAs ofDocument fs.settled :=
  Json.readsAs_of_document hfloats fs.readable_toJson (by decide) fs.ofDocument_toJson

theorem Change.reads_toJson (c : Change) : c.toJson.ReadsAs ofDocument c.settled :=
  Json.readsAs_of_document hfloats c.readable_toJson (by decide) c.ofDocument_toJson

theorem Change.reads_toJsonFlipped (c : Change) : c.toJsonFlipped.ReadsAs ofDocument c.settled :=
  Json.readsAs_of_document hfloats c.readable_toJsonFlipped (by decide) c.ofDocument_toJsonFlipped

variable [Instant.Codec] (htimes : Instant.Codec.Lawful)

include htimes

theorem Record.reads_toJson {r : Record} (h : r.Timed) : r.toJson.ReadsAs ofDocument r.settled :=
  Json.readsAs_of_document hfloats r.readable_toJson (by decide) (ofDocument_toJson htimes h)

/-- Everything that is written as JSON reads back, up to the floats that JSON does not have, as
    long as finite floats and ordinary instants read back from their texts. -/
theorem roundTrip : RoundTrip where
  fields fs h := by
    have hreads := fs.reads_toJson hfloats
    rwa [Fields.settled_eq_self h] at hreads
  change c h := by
    have hreads := c.reads_toJson hfloats
    have hflipped := c.reads_toJsonFlipped hfloats
    rw [Change.settled_eq_self h] at hreads hflipped
    exact ⟨hreads, hflipped⟩
  constraints c :=
    Json.readsAs_of_document hfloats c.readable_toJson (by decide) c.ofDocument_toJson
  config c surplus :=
    Json.readsAs_of_document hfloats c.readable_toJson (by decide) (c.ofDocument_toJson surplus)
  record r htimed h := by
    have hreads := Record.reads_toJson hfloats htimes htimed
    rwa [Record.settled_eq_self h] at hreads
  fields_settled fs := fs.reads_toJson hfloats
  change_settled c :=
    ⟨by cases c <;> rfl, c.reads_toJson hfloats, c.reads_toJsonFlipped hfloats⟩
  record_settled _ h := Record.reads_toJson hfloats htimes h
  get?_settled fs name := fs.get?_settled name

end

/-- With the shortest numerals and the times of RFC 3339, an integer, the float three and a
    negative zero come back as they were, and NaN as null. -/
theorem roundTrip_kinds :
    let fs (v : Value) : Fields := .ofList [("a", .int 3), ("b", .float ⟨0x4008000000000000⟩),
      ("c", .float ⟨0x8000000000000000⟩), ("d", v)]
    let r (v : Value) : Record := ⟨⟨1⟩, fs v, ⟨2⟩, .ofNanoseconds 0, some (.ofNanoseconds 1)⟩
    let nan : Value := .float ⟨0x7FF8000000000000⟩
    Json.FloatCodec.Lawful ∧ Instant.Codec.Lawful ∧
      (r nan).Timed ∧ (r nan).toJson.ReadsAs Record.ofDocument (r .null) ∧
      (fs .null).AreSettled ∧ (fs .null).toJson.ReadsAs Fields.ofDocument (fs .null) := by
  intro fs r nan
  have hfloats := Json.FloatCodec.lawful_nearest
  have htimes := Instant.Codec.lawful_rfc3339
  have htimed : (r nan).Timed :=
    ⟨Instant.ordinary_ofNanoseconds (by decide), fun t ht =>
      Option.some.inj ht ▸ Instant.ordinary_ofNanoseconds (by decide)⟩
  have hsettled : (r nan).settled = r .null := by decide +kernel
  have hfields : (fs .null).AreSettled := by
    intro name v hget
    have hmem := Fields.mem_toList_iff.2 hget
    have hlist : (fs .null).toList = [("a", .int 3), ("b", .float ⟨0x4008000000000000⟩),
      ("c", .float ⟨0x8000000000000000⟩), ("d", .null)] := by decide +kernel
    rw [hlist] at hmem
    simp only [List.mem_cons, Prod.mk.injEq, List.not_mem_nil, or_false] at hmem
    rcases hmem with ⟨-, rfl⟩ | ⟨-, rfl⟩ | ⟨-, rfl⟩ | ⟨-, rfl⟩ <;> rintro x ⟨⟩ <;> rfl
  refine ⟨hfloats, htimes, htimed, ?_, hfields, (roundTrip hfloats htimes).fields _ hfields⟩
  rw [← hsettled]
  exact (roundTrip hfloats htimes).record_settled _ htimed

end VersionedStore
