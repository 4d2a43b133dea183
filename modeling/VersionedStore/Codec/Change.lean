/-
  VersionedStore.Codec.Change

  Changes as JSON: an object with the mode and the content of the change, in
  either order, or the sequence of the two.  Content that comes before its mode
  is read as a whole first and decoded once the mode is known.  The member of an
  object may give the mode in the form of a variant without content; the item of
  a sequence has to be its name.
-/
import VersionedStore.Change
import VersionedStore.Codec.Fields

namespace VersionedStore

namespace Adjustment

/-- The adjustment as a JSON object. -/
def toJson (a : Adjustment) : Json :=
  .object [("field", .string a.field), ("delta", .integer a.delta.toInt)]

/-- The parts of an adjustment that have been read so far. -/
structure Parts where
  field : Option String
  delta : Option Int64

/-- How an adjustment is read. -/
def shape : Shape Parts where
  name := "Adjustment"
  strict := false
  fields := [
    .of "field" Document.text (fun s p => { p with field := some s }) false,
    .of "delta" Document.int64 (fun n p => { p with delta := some n }) false]

/-- The adjustment that a document stands for. -/
def ofDocument (surplus : Surplus) (d : Document) : Decoded Adjustment := do
  let p ← shape.read surplus ⟨none, none⟩ d
  return { field := ← required "field" p.field, delta := ← required "delta" p.delta }

end Adjustment

namespace Mode

/-- The mode of a name. -/
def named (s : String) : Decoded Mode :=
  match ofName? s with
  | some mode => .ok mode
  | none => .error (.unknownVariant s (all.map name))

/-- The mode that a document names. -/
def ofItem : Document → Decoded Mode
  | .string s => named s
  | d => d.mismatch .variant

/-- The mode that a member stands for: its name, or an object with its name and null. -/
def ofMember : Document → Decoded Mode
  | .string s => named s
  | .object ((s, d) :: rest) ending => do
    let mode ← named s
    match d with
    | .null => .ok ()
    | d => d.mismatch .unit
    if rest.isEmpty && ending == .closed then .ok mode else .error .malformed
  | _ => .error .malformed

end Mode

namespace Change

/-- The name of the member that holds the mode. -/
def modeKey : String := "mode"

/-- The name of the member that holds the content. -/
def contentKey : String := "change"

/-- What the change consists of, without its mode. -/
def contentJson : Change → Json
  | replace fields | patch fields => fields.toJson
  | adjust a => a.toJson

/-- The change as a JSON object. -/
def toJson (c : Change) : Json :=
  .object [(modeKey, .string c.mode.name), (contentKey, c.contentJson)]

/-- The change of a mode whose content a document stands for. -/
def ofContent (surplus : Surplus) (d : Document) : Mode → Decoded Change
  | .replace => return replace (← Fields.ofDocument d)
  | .patch => return patch (← Fields.ofDocument d)
  | .adjust => return adjust (← Adjustment.ofDocument surplus d)

/-- Nothing may follow the mode and the content but the end. -/
def nothingElse (ending : Ending) : List (String × Document) → Decoded Unit
  | [] => Document.atEnd ending
  | (name, _) :: _ => .error (.duplicateField name)

/-- The change that the members named `modeKey` and `contentKey` of an object stand for. -/
def ofMembers (ending : Ending) : List (String × Document) → Decoded Change
  | [] => do
    Document.atEnd ending
    .error (.missingField modeKey)
  | (name, d) :: rest =>
    if name = modeKey then do
      let mode ← Mode.ofMember d
      match rest with
      | [] => do
        Document.atEnd ending
        .error (.missingField contentKey)
      | (name, content) :: rest =>
        if name = modeKey then .error (.duplicateField modeKey)
        else do
          let change ← ofContent .malformed content mode
          nothingElse ending rest
          .ok change
    else if !d.isWhole then .error .malformed
    else
      match rest with
      | [] => do
        Document.atEnd ending
        .error (.missingField modeKey)
      | (name, mode) :: rest =>
        if name = contentKey then .error (.duplicateField contentKey)
        else do
          let change ← ofContent .refused d (← Mode.ofMember mode)
          nothingElse ending rest
          .ok change

/-- The change that a sequence of items stands for. -/
def ofItems (ending : Ending) : List Document → Decoded Change
  | [] => do
    Document.atEnd ending
    .error (.invalidLength 0 .change)
  | [mode] => do
    let _ ← Mode.ofItem mode
    Document.atEnd ending
    .error (.invalidLength 1 .change)
  | mode :: content :: rest => do
    let change ← ofContent .malformed content (← Mode.ofItem mode)
    if rest.isEmpty then Document.atEnd ending else .error .malformed
    .ok change

/-- The change that a document stands for.  Members of other names are passed over. -/
def ofDocument : Document → Decoded Change
  | .object members ending =>
    ofMembers ending (members.filter fun (name, _) => name = modeKey ∨ name = contentKey)
  | .array items ending => ofItems ending items
  | d => d.mismatch .change

end Change

end VersionedStore
