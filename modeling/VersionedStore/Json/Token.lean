/-
  VersionedStore.Json.Token

  The tokens of a JSON text.  The list stops at the first character that fits no
  token, with a token of its own for that.

  A number that is beyond the doubles and a string in which an escape names one
  half of a surrogate pair are well formed, but stand for no value; their tokens
  say so.
-/
import VersionedStore.Json.Number
import VersionedStore.Text.Numeral

namespace VersionedStore.Json

/-- A token of a JSON text. -/
inductive Token where
  | openArray
  | closeArray
  | openObject
  | closeObject
  | comma
  | colon
  /-- A literal or a number, as the document that it stands for. -/
  | scalar (d : Document)
  /-- A string, if it stands for a text. -/
  | string (s : Option String)
  | malformed
deriving Repr, Inhabited

namespace Token

-- ============================================================================
-- Strings
-- ============================================================================

/-- A part of a string: a character as it stands, or a code unit of UTF-16 by its number. -/
inductive Piece where
  | char (c : Char)
  | unit (n : Nat)
deriving DecidableEq, Repr

/-- The character that a backslash and one more character stand for. -/
def escaped? : Char → Option Char
  | '"' => some '"'
  | '\\' => some '\\'
  | '/' => some '/'
  | 'b' => some '\x08'
  | 'f' => some '\x0c'
  | 'n' => some '\n'
  | 'r' => some '\r'
  | 't' => some '\t'
  | _ => none

/-- The pieces of a string after its opening quote, up to the closing one. -/
def pieces : List Char → Option (List Piece × List Char)
  | [] => none
  | '"' :: cs => some ([], cs)
  | '\\' :: 'u' :: a :: b :: c :: d :: cs => do
    let n ← Text.numeral? 16 [a, b, c, d]
    let (ps, rest) ← pieces cs
    some (.unit n :: ps, rest)
  | '\\' :: e :: cs => do
    let c ← escaped? e
    let (ps, rest) ← pieces cs
    some (.char c :: ps, rest)
  | c :: cs => do
    if c.toNat < 0x20 then none
    let (ps, rest) ← pieces cs
    some (.char c :: ps, rest)

/-- The text that the pieces stand for, unless half of a surrogate pair is among them. -/
def assemble : List Piece → Option (List Char)
  | [] => some []
  | .char c :: ps => (assemble ps).map (c :: ·)
  | .unit n :: ps =>
    if n < 0xd800 ∨ 0xdfff < n then (assemble ps).map (Char.ofNat n :: ·)
    else
      match ps with
      | .unit m :: ps =>
        if n < 0xdc00 ∧ 0xdc00 ≤ m ∧ m ≤ 0xdfff then
          (assemble ps).map (Char.ofNat (0x10000 + (n - 0xd800) * 0x400 + (m - 0xdc00)) :: ·)
        else none
      | _ => none

-- ============================================================================
-- Tokens
-- ============================================================================

/-- The rest of the text after a word. -/
def afterWord? (word : String) (cs : List Char) : Option (List Char) :=
  if word.toList.isPrefixOf cs then some (cs.drop word.length) else none

/-- Whether a character may stand between tokens. -/
def isSpace (c : Char) : Bool :=
  c == ' ' || c == '\t' || c == '\n' || c == '\r'

/-- The token at the start of a text that does not start with a space. -/
def first [FloatCodec] (cs : List Char) : Option (Token × List Char) :=
  match cs with
  | '[' :: cs => some (openArray, cs)
  | ']' :: cs => some (closeArray, cs)
  | '\x7b' :: cs => some (openObject, cs)
  | '\x7d' :: cs => some (closeObject, cs)
  | ',' :: cs => some (comma, cs)
  | ':' :: cs => some (colon, cs)
  | '"' :: cs => (pieces cs).map fun (ps, rest) => (string ((assemble ps).map String.ofList), rest)
  | 'n' :: _ => (afterWord? "null" cs).map (scalar .null, ·)
  | 't' :: _ => (afterWord? "true" cs).map (scalar (.bool true), ·)
  | 'f' :: _ => (afterWord? "false" cs).map (scalar (.bool false), ·)
  | cs => (Numeral.read cs).map fun (n, rest) => (scalar n.document, rest)

/-- The tokens of a text of at most `fuel` characters. -/
def all [FloatCodec] : Nat → List Char → List Token
  | 0, _ => []
  | _, [] => []
  | fuel + 1, c :: cs =>
    if isSpace c then all fuel cs
    else
      match first (c :: cs) with
      | some (t, rest) => t :: all fuel rest
      | none => [malformed]

/-- The tokens of a text. -/
def ofText [FloatCodec] (text : String) : List Token :=
  let cs := text.toList
  all cs.length cs

end Token

end VersionedStore.Json
