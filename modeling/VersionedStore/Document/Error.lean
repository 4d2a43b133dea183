/-
  VersionedStore.Document.Error

  Why a document does not decode.  Either the text is not well formed, or it is
  and its content is not what was expected; only the second kind has a message.
-/
import VersionedStore.Decimal.Layout
import VersionedStore.Instant.Written
import VersionedStore.Text.Quoted

namespace VersionedStore

/-- What was found in the place of something else. -/
inductive Found where
  | null
  | bool (b : Bool)
  | integer (n : Int)
  | float (x : Double)
  | string (s : String)
  | sequence
  | map
deriving DecidableEq, Repr

/-- What was expected in a place. -/
inductive Expected where
  | i64
  | u32
  | u64
  | string
  | map
  | sequence
  | unit
  | time
  | change
  /-- The name of a variant. -/
  | variant
  | structure (name : String)
  /-- A structure as the sequence of its fields. -/
  | fieldsOf (name : String) (count : Nat)
  /-- A sequence that has been read to its end elsewhere. -/
  | items (count : Nat)
deriving DecidableEq, Repr

/-- Why a document does not decode. -/
inductive DecodeError where
  | malformed
  | invalidType (found : Found) (expected : Expected)
  | invalidValue (found : Found) (expected : Expected)
  | invalidLength (length : Nat) (expected : Expected)
  | missingField (name : String)
  | duplicateField (name : String)
  | unknownField (name : String) (known : List String)
  | unknownVariant (name : String) (known : List String)
  | noVariant (type : String)
  | invalidTime (fault : Instant.Fault)
deriving DecidableEq, Repr

namespace DecodeError

/-- A text between grave accents. -/
def ticked (s : String) : String :=
  "\x60" ++ s ++ "\x60"

/-- What was found, with floats in the given layout. -/
def foundText (layout : Decimal.Layout) : Found → String
  | .null => "null"
  | .bool b => "boolean " ++ ticked (if b then "true" else "false")
  | .integer n => "integer " ++ ticked (toString n)
  | .float x => "floating point " ++ ticked (Decimal.text layout x)
  | .string s => "string " ++ Text.quote s
  | .sequence => "sequence"
  | .map => "map"

/-- A number of elements, in words. -/
def elements (n : Nat) : String :=
  toString n ++ (if n = 1 then " element" else " elements")

/-- What was expected. -/
def expectedText : Expected → String
  | .i64 => "i64"
  | .u32 => "u32"
  | .u64 => "u64"
  | .string => "a string"
  | .map => "a map"
  | .sequence => "a sequence"
  | .unit => "unit"
  | .time => "an RFC 3339 formatted date and time string"
  | .change => "adjacently tagged enum Change"
  | .variant => "variant identifier"
  | .structure name => "struct " ++ name
  | .fieldsOf name count => "struct " ++ name ++ " with " ++ elements count
  | .items count => elements count ++ " in sequence"

/-- The known names to choose from. -/
def choice : List String → String
  | [] => "there are no fields"
  | [a] => "expected " ++ ticked a
  | [a, b] => "expected " ++ ticked a ++ " or " ++ ticked b
  | names => "expected one of " ++ ", ".intercalate (names.map ticked)

/-- The message of an error in content; a text that is not well formed has none of ours. -/
def message (layout : Decimal.Layout) : DecodeError → Option String
  | .malformed => none
  | .invalidType found expected =>
    some ("invalid type: " ++ foundText layout found ++ ", expected " ++ expectedText expected)
  | .invalidValue found expected =>
    some ("invalid value: " ++ foundText layout found ++ ", expected " ++ expectedText expected)
  | .invalidLength length expected =>
    some ("invalid length " ++ toString length ++ ", expected " ++ expectedText expected)
  | .missingField name => some ("missing field " ++ ticked name)
  | .duplicateField name => some ("duplicate field " ++ ticked name)
  | .unknownField name known => some ("unknown field " ++ ticked name ++ ", " ++ choice known)
  | .unknownVariant name known => some ("unknown variant " ++ ticked name ++ ", " ++ choice known)
  | .noVariant type => some ("data did not match any variant of untagged enum " ++ type)
  | .invalidTime fault => some fault.message

end DecodeError

end VersionedStore
