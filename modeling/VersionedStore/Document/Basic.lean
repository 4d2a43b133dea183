/-
  VersionedStore.Document.Basic

  Self-describing data as it is read from a text.

  A `Document` reaches as far as its text could be read.  Where the text stops
  being well formed, the document says so, and nothing after that place is in
  it; so a decoder that walks the document in order meets the first problem of
  the text first, be it a value of the wrong type or the end of what is well
  formed.

  A part of the text may also be well formed and yet stand for no value, such as
  a number beyond the doubles.  Such a part is `unusable`: it can be passed over
  but not decoded.
-/
import VersionedStore.Double.Basic

namespace VersionedStore

/-- How the list of items or members of a document ends. -/
inductive Ending where
  /-- With its closing bracket. -/
  | closed
  /-- With a name that stands for no text; what follows is well formed. -/
  | unusable
  /-- Where the text stops being well formed. -/
  | malformed
deriving DecidableEq, Repr

/-- Data as far as its text could be read. -/
inductive Document where
  | null
  | bool (b : Bool)
  | integer (n : Int)
  | float (x : Double)
  | string (s : String)
  | array (items : List Document) (ending : Ending)
  | object (members : List (String × Document)) (ending : Ending)
  /-- Well-formed text that stands for no value. -/
  | unusable
  /-- Text that is not well formed from its start. -/
  | malformed
deriving Repr, Inhabited

namespace Document

mutual

/-- Whether every part of the document stands for a value. -/
def isWhole : Document → Bool
  | .array items ending => areWhole items && ending == .closed
  | .object members ending => membersAreWhole members && ending == .closed
  | .unusable | .malformed => false
  | .null | .bool _ | .integer _ | .float _ | .string _ => true

/-- Whether every item stands for a value. -/
def areWhole : List Document → Bool
  | [] => true
  | d :: ds => isWhole d && areWhole ds

/-- Whether every member stands for a value. -/
def membersAreWhole : List (String × Document) → Bool
  | [] => true
  | (_, d) :: ms => isWhole d && membersAreWhole ms

end

end Document

/-- What became of reading a text. -/
structure Reading where
  document : Document
  /-- Whether nothing but blanks follows the document. -/
  complete : Bool

end VersionedStore
