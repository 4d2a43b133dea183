/-
  VersionedStore.Document.Decode

  Decoders of documents: numbers in a range, strings, lists, maps and
  structures.  Each walks its document in order and stops at the first problem.

  A structure may be given as a map from the names of its fields or as the
  sequence of its fields (`Shape`).
-/
import VersionedStore.Document.Basic
import VersionedStore.Document.Error
import VersionedStore.Word

namespace VersionedStore

/-- A decoder's answer. -/
abbrev Decoded (α : Type) := Except DecodeError α

namespace Reading

/-- Decode what was read, and accept it only if nothing but blanks follows it. -/
def decode {α : Type} (r : Reading) (decoder : Document → Decoded α) : Decoded α := do
  let a ← decoder r.document
  if r.complete then .ok a else .error .malformed

end Reading

namespace Document

/-- The refusal of a document whose type is not the expected one. -/
def mismatch {α : Type} (expected : Expected) : Document → Decoded α
  | .null => .error (.invalidType .null expected)
  | .bool b => .error (.invalidType (.bool b) expected)
  | .integer n => .error (.invalidType (.integer n) expected)
  | .float x => .error (.invalidType (.float x) expected)
  | .string s => .error (.invalidType (.string s) expected)
  | .array _ _ => .error (.invalidType .sequence expected)
  | .object _ _ => .error (.invalidType .map expected)
  | .unusable | .malformed => .error .malformed

/-- Succeeds if a list of items or members was closed. -/
def atEnd : Ending → Decoded Unit
  | .closed => .ok ()
  | .unusable | .malformed => .error .malformed

/-- An integer that fits a type of words. -/
def fitting {α : Type} (expected : Expected) (fit : Int → Option α) : Document → Decoded α
  | .integer n =>
    match fit n with
    | some a => .ok a
    | none => .error (.invalidValue (.integer n) expected)
  | d => d.mismatch expected

/-- A signed integer of 64 bits. -/
def int64 : Document → Decoded Int64 :=
  fitting .i64 int64?

/-- An unsigned integer of 32 bits. -/
def uint32 : Document → Decoded UInt32 :=
  fitting .u32 uint32?

/-- An unsigned integer of 64 bits. -/
def uint64 : Document → Decoded UInt64 :=
  fitting .u64 uint64?

/-- A string. -/
def text : Document → Decoded String
  | .string s => .ok s
  | d => d.mismatch .string

/-- A sequence of items that one decoder reads. -/
def listOf {α : Type} (item : Document → Decoded α) : Document → Decoded (List α)
  | .array items ending => do
    let l ← items.mapM item
    atEnd ending
    .ok l
  | d => d.mismatch .sequence

/-- A map whose values one decoder reads, in the order of the text. -/
def mapOf {α : Type} (value : Document → Decoded α) : Document → Decoded (List (String × α))
  | .object members ending => do
    let l ← members.mapM fun (name, d) => do
      let a ← value d
      .ok (name, a)
    atEnd ending
    .ok l
  | d => d.mismatch .map

/-- A value that may be null. -/
def optional {α : Type} (value : Document → Decoded α) : Document → Decoded (Option α)
  | .null => .ok none
  | d => do
    let a ← value d
    .ok (some a)

end Document

-- ============================================================================
-- Structures
-- ============================================================================

/-- What becomes of the items of a sequence after the last field of a structure. -/
inductive Surplus where
  /-- They are no well-formed continuation. -/
  | malformed
  /-- The sequence has the wrong length. -/
  | refused
  /-- They are passed over. -/
  | ignored
deriving DecidableEq, Repr

/-- How one field of a structure is read into what has been collected so far. -/
structure Field (σ : Type) where
  name : String
  read : Document → Decoded (σ → σ)
  /-- Whether a sequence of fields may end before this one. -/
  hasDefault : Bool

/-- The field of a name, from the decoder of its value and what the value is put into. -/
def Field.of {α σ : Type} (name : String) (decode : Document → Decoded α) (set : α → σ → σ)
    (hasDefault : Bool) : Field σ where
  name := name
  read d := set <$> decode d
  hasDefault := hasDefault

/-- The fields of a structure in their order, and whether other names are refused. -/
structure Shape (σ : Type) where
  name : String
  fields : List (Field σ)
  strict : Bool

namespace Shape

variable {σ : Type}

/-- Take up one member of a map, given the names that came before it. -/
def readMember (shape : Shape σ) (sofar : List String × σ) (member : String × Document) :
    Decoded (List String × σ) :=
  match shape.fields.find? (·.name = member.1) with
  | some field =>
    if field.name ∈ sofar.1 then .error (.duplicateField field.name)
    else do
      let set ← field.read member.2
      .ok (field.name :: sofar.1, set sofar.2)
  | none =>
    if shape.strict then .error (.unknownField member.1 (shape.fields.map (·.name)))
    else .ok sofar

/-- Take up the items of a sequence, field by field. -/
def readItems (shape : Shape σ) (surplus : Surplus) (length : Nat) (ending : Ending) :
    List (Field σ) → List Document → σ → Decoded σ
  | [], items, s =>
    match surplus with
    | .malformed => if items.isEmpty then do Document.atEnd ending; .ok s else .error .malformed
    | .refused =>
      if items.isEmpty then .ok s
      else .error (.invalidLength length (.items shape.fields.length))
    | .ignored => .ok s
  | field :: fields, item :: items, s => do
    let set ← field.read item
    readItems shape surplus length ending fields items (set s)
  | field :: fields, [], s => do
    Document.atEnd ending
    if field.hasDefault then readItems shape surplus length ending fields [] s
    else .error (.invalidLength length (.fieldsOf shape.name shape.fields.length))

/-- Collect the fields of a structure from a map or a sequence. -/
def read (shape : Shape σ) (surplus : Surplus) (start : σ) : Document → Decoded σ
  | .object members ending => do
    let r ← members.foldlM shape.readMember ([], start)
    Document.atEnd ending
    .ok r.2
  | .array items ending =>
    shape.readItems surplus items.length ending shape.fields items start
  | d => d.mismatch (.structure shape.name)

end Shape

/-- A field that has to be there. -/
def required {α : Type} (name : String) : Option α → Decoded α
  | some a => .ok a
  | none => .error (.missingField name)

end VersionedStore
