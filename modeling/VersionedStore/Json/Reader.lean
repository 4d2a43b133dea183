/-
  VersionedStore.Json.Reader

  The document in a JSON text.  The reader takes the tokens one by one and keeps
  the arrays and objects that are still open on a stack, so it ends with the
  list of tokens whatever the nesting.  At the first token that does not fit, the
  open arrays and objects are given up as malformed there.

  An array or object below `maxDepth` others is well formed but unusable.

  `Json.document` is the other way round: the document that a JSON value reads
  back as.
-/
import VersionedStore.Json.Basic
import VersionedStore.Json.Token

namespace VersionedStore

namespace Json

/-- How many arrays and objects may be nested in one another. -/
def maxDepth : Nat := 127

/-- An array or object that is still open; what it holds so far is in reverse order. -/
inductive Frame where
  | array (items : List Document)
  /-- Between members the name is `none`; once a name stood for no text, `usable` is false
      and nothing more is kept. -/
  | object (members : List (String × Document)) (name : Option String) (usable : Bool)

/-- What may come next. -/
inductive Awaiting where
  | value
  | valueOrClose
  | name
  | nameOrClose
  | colon
  | separator
deriving DecidableEq, Repr

/-- The frame with one more value. -/
def Frame.add (d : Document) : Frame → Frame
  | .array items => .array (d :: items)
  | .object members (some name) usable => .object ((name, d) :: members) none usable
  | .object members none usable => .object members none usable

/-- The document of a frame that ends in its closing bracket. -/
def Frame.close : Frame → Document
  | .array items => .array items.reverse .closed
  | .object members _ usable =>
    .object members.reverse (if usable then .closed else .unusable)

/-- The document of a frame that is given up, with what was read of its last value. -/
def Frame.giveUp (last : Option Document) : Frame → Document
  | .array items => .array (items.reverse ++ last.toList) .malformed
  | .object members (some name) _ =>
    .object (members.reverse ++ [(name, last.getD .malformed)]) .malformed
  | .object members none _ => .object members.reverse .malformed

/-- The document of a stack that is given up. -/
def giveUp : Option Document → List Frame → Document
  | last, [] => last.getD .malformed
  | last, frame :: frames => giveUp (some (frame.giveUp last)) frames

/-- What a token leads to. -/
inductive Progress where
  | more (frames : List Frame) (awaiting : Awaiting)
  | finished (d : Document)
  | stuck

/-- Hand a value to the innermost frame. -/
def deliver (d : Document) : List Frame → Progress
  | [] => .finished d
  | frame :: frames => .more (frame.add d :: frames) .separator

/-- Whether more arrays and objects are open than may be nested. -/
def isTooDeep (frames : List Frame) : Bool :=
  !(frames.drop maxDepth).isEmpty

/-- Close the innermost frame. -/
def closeFrame : List Frame → Progress
  | [] => .stuck
  | frame :: frames =>
    deliver (if isTooDeep (frame :: frames) then .unusable else frame.close) frames

/-- A string where a value may stand. -/
def stringValue : Option String → Document
  | some s => .string s
  | none => .unusable

/-- A string where a name may stand. -/
def takeName (s : Option String) : List Frame → Progress
  | .object members _ usable :: frames =>
    .more (.object members (if usable then s else none) (usable && s.isSome) :: frames) .colon
  | _ => .stuck

/-- Take one token. -/
def step (frames : List Frame) : Awaiting → Token → Progress
  | .value, .openArray | .valueOrClose, .openArray => .more (.array [] :: frames) .valueOrClose
  | .value, .openObject | .valueOrClose, .openObject =>
    .more (.object [] none true :: frames) .nameOrClose
  | .value, .scalar d | .valueOrClose, .scalar d => deliver d frames
  | .value, .string s | .valueOrClose, .string s => deliver (stringValue s) frames
  | .valueOrClose, .closeArray => closeFrame frames
  | .name, .string s | .nameOrClose, .string s => takeName s frames
  | .nameOrClose, .closeObject => closeFrame frames
  | .colon, .colon => .more frames .value
  | .separator, .comma =>
    match frames with
    | .array _ :: _ => .more frames .value
    | .object .. :: _ => .more frames .name
    | [] => .stuck
  | .separator, .closeArray =>
    match frames with
    | .array _ :: _ => closeFrame frames
    | _ => .stuck
  | .separator, .closeObject =>
    match frames with
    | .object .. :: _ => closeFrame frames
    | _ => .stuck
  | _, _ => .stuck

/-- Take all tokens. -/
def readTokens : List Token → List Frame → Awaiting → Reading
  | [], frames, _ => ⟨giveUp none frames, false⟩
  | t :: ts, frames, awaiting =>
    match step frames awaiting t with
    | .more frames awaiting => readTokens ts frames awaiting
    | .finished d => ⟨d, ts.isEmpty⟩
    | .stuck => ⟨giveUp none frames, false⟩

/-- Read a JSON text. -/
def read [FloatCodec] (text : String) : Reading :=
  readTokens (Token.ofText text) [] .value

-- ============================================================================
-- What a JSON value reads back as
-- ============================================================================

mutual

/-- The document that a JSON value reads back as. -/
def document : Json → Document
  | .null => .null
  | .bool b => .bool b
  | .integer n => .integer n
  | .float x => .float x
  | .string s => .string s
  | .array items => .array (documents items) .closed
  | .object members => .object (memberDocuments members) .closed

/-- The documents of the items of an array. -/
def documents : List Json → List Document
  | [] => []
  | v :: vs => document v :: documents vs

/-- The documents of the members of an object. -/
def memberDocuments : List (String × Json) → List (String × Document)
  | [] => []
  | (name, v) :: ms => (name, document v) :: memberDocuments ms

end

end Json

end VersionedStore
