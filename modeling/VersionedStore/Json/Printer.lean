/-
  VersionedStore.Json.Printer

  The text of a JSON value: `compact` on one line without blanks, `pretty` with
  one item or member a line, indented by two blanks for each level.
-/
import VersionedStore.Json.Basic
import VersionedStore.Json.Number
import VersionedStore.Text.Quoted

namespace VersionedStore.Json

/-- How one character of a string is written. -/
def stringChar (c : Char) : List Char :=
  match c with
  | '"' => ['\\', '"']
  | '\\' => ['\\', '\\']
  | '\x08' => ['\\', 'b']
  | '\x0c' => ['\\', 'f']
  | '\n' => ['\\', 'n']
  | '\r' => ['\\', 'r']
  | '\t' => ['\\', 't']
  | c =>
    if c.toNat < 0x20 then
      ['\\', 'u', '0', '0'] ++ List.replicate (2 - (Text.hexDigits c.toNat).length) '0'
        ++ Text.hexDigits c.toNat
    else [c]

/-- A string between quotes. -/
def stringText (s : String) : List Char :=
  '"' :: s.toList.flatMap stringChar ++ ['"']

/-- An integer. -/
def integerText (n : Int) : List Char :=
  Decimal.sign (n < 0) ++ Decimal.digits n.natAbs

/-- Pieces of text with a separator between them. -/
def joined (separator : List Char) : List (List Char) → List Char
  | [] => []
  | [piece] => piece
  | piece :: pieces => piece ++ separator ++ joined separator pieces

section Values

variable [FloatCodec]

mutual

/-- The characters of a value on one line. -/
def compactChars : Json → List Char
  | .null => "null".toList
  | .bool b => (if b then "true" else "false").toList
  | .integer n => integerText n
  | .float x => FloatCodec.text x
  | .string s => stringText s
  | .array items => '[' :: joined [','] (compactItems items) ++ [']']
  | .object members => '\x7b' :: joined [','] (compactMembers members) ++ ['\x7d']

/-- The items of an array, each on its own. -/
def compactItems : List Json → List (List Char)
  | [] => []
  | v :: vs => compactChars v :: compactItems vs

/-- The members of an object, each on its own. -/
def compactMembers : List (String × Json) → List (List Char)
  | [] => []
  | (name, v) :: ms => (stringText name ++ ':' :: compactChars v) :: compactMembers ms

end

/-- A line break and the blanks of a level. -/
def lineBreak (level : Nat) : List Char :=
  '\n' :: List.replicate (2 * level) ' '

/-- Pieces between brackets, each on a line of its own. -/
def block (level : Nat) (opening closing : Char) (pieces : List (List Char)) : List Char :=
  if pieces.isEmpty then [opening, closing]
  else
    opening :: lineBreak (level + 1) ++ joined (',' :: lineBreak (level + 1)) pieces
      ++ lineBreak level ++ [closing]

mutual

/-- The characters of an indented value that starts on a given level. -/
def prettyChars (level : Nat) : Json → List Char
  | .array items => block level '[' ']' (prettyItems (level + 1) items)
  | .object members => block level '\x7b' '\x7d' (prettyMembers (level + 1) members)
  | .null => "null".toList
  | .bool b => (if b then "true" else "false").toList
  | .integer n => integerText n
  | .float x => FloatCodec.text x
  | .string s => stringText s

/-- The items of an array, indented. -/
def prettyItems (level : Nat) : List Json → List (List Char)
  | [] => []
  | v :: vs => prettyChars level v :: prettyItems level vs

/-- The members of an object, indented. -/
def prettyMembers (level : Nat) : List (String × Json) → List (List Char)
  | [] => []
  | (name, v) :: ms =>
    (stringText name ++ ':' :: ' ' :: prettyChars level v) :: prettyMembers level ms

end

/-- The value on one line. -/
def compact (v : Json) : String :=
  String.ofList (compactChars v)

/-- The value over several lines. -/
def pretty (v : Json) : String :=
  String.ofList (prettyChars 0 v)

end Values

example : compact (.array [.null, .integer (-3), .string "a\x01"]) = "[null,-3,\"a\\u0001\"]" := by
  decide +kernel
example : pretty (.object [("a", .array []), ("b", .bool true)])
    = "\x7b\n  \"a\": [],\n  \"b\": true\n\x7d" := by decide +kernel

end VersionedStore.Json
