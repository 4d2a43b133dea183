/-
  VersionedStore.Toml.Space

  What stands between the parts of a TOML text: spaces, line ends and comments.

  A line ends with a line feed, which a carriage return may precede.  Comments
  and strings on one line hold no control characters but the tab.
-/

namespace VersionedStore.Toml

/-- A reader of a part of a text, which hands on the rest; `none` if the text does not
    start with such a part. -/
abbrev Part (α : Type) := List Char → Option (α × List Char)

/-- Whether a character is a space within a line. -/
def isSpace (c : Char) : Bool :=
  c == ' ' || c == '\t'

/-- Whether a character may stand in a comment. -/
def isPlain (c : Char) : Bool :=
  c == '\t' || (0x20 ≤ c.toNat && c != '\x7f')

/-- The text without the spaces in front. -/
def skipSpaces (cs : List Char) : List Char :=
  cs.dropWhile isSpace

/-- The text after a line end. -/
def newline? : List Char → Option (List Char)
  | '\n' :: cs => some cs
  | '\r' :: '\n' :: cs => some cs
  | _ => none

/-- The text without the comment in front, if there is one. -/
def skipComment : List Char → List Char
  | '#' :: cs => cs.dropWhile isPlain
  | cs => cs

/-- The text after this line, if nothing but a comment is left of the line. -/
def endOfLine? (cs : List Char) : Option (List Char) :=
  match skipComment (skipSpaces cs) with
  | [] => some []
  | cs => newline? cs

/-- The text without the spaces, comments and line ends in front, of at most `fuel` lines. -/
def skipLines : Nat → List Char → List Char
  | 0, cs => cs
  | fuel + 1, cs =>
    match newline? (skipComment (skipSpaces cs)) with
    | some rest => skipLines fuel rest
    | none => skipSpaces cs

/-- The text without all the spaces, comments and line ends in front. -/
def skipBlank (cs : List Char) : List Char :=
  skipLines cs.length cs

end VersionedStore.Toml
