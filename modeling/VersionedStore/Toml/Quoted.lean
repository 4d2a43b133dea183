/-
  VersionedStore.Toml.Quoted

  Strings and keys of TOML.

  A string stands between double quotes, with escapes, or between single quotes,
  without.  Three quotes on either side make it a string of several lines, which
  may hold one or two of its quotes in a row, and which starts after the first
  line end if it opens with one.  Lines end with a line feed in the value.  A
  backslash at the end of a line takes up all spaces and line ends that follow.
-/
import VersionedStore.Text.Numeral
import VersionedStore.Toml.Space

namespace VersionedStore.Toml

-- ============================================================================
-- Escapes
-- ============================================================================

/-- The character of a code point of so many hexadecimal digits. -/
def codePoint (width : Nat) : Part Char := fun cs => do
  let ds := cs.take width
  let n ← Text.numeral? 16 ds
  if ds.length = width ∧ n.isValidChar then some (Char.ofNat n, cs.drop width) else none

/-- The character that stands for what follows a backslash. -/
def escaped : Part Char
  | 'b' :: cs => some ('\x08', cs)
  | 't' :: cs => some ('\t', cs)
  | 'n' :: cs => some ('\n', cs)
  | 'f' :: cs => some ('\x0c', cs)
  | 'r' :: cs => some ('\r', cs)
  | '"' :: cs => some ('"', cs)
  | '\\' :: cs => some ('\\', cs)
  | 'u' :: cs => codePoint 4 cs
  | 'U' :: cs => codePoint 8 cs
  | _ => none

-- ============================================================================
-- Strings on one line
-- ============================================================================

/-- The content of a string up to its closing double quote, of at most `fuel` characters. -/
def basicContent : Nat → Part (List Char)
  | 0, _ => none
  | _, [] => none
  | fuel + 1, c :: cs =>
    if c = '"' then some ([], cs)
    else if c = '\\' then do
      let (c, cs) ← escaped cs
      let (s, cs) ← basicContent fuel cs
      some (c :: s, cs)
    else if isPlain c then do
      let (s, cs) ← basicContent fuel cs
      some (c :: s, cs)
    else none

/-- The content of a string up to its closing single quote. -/
def literalContent : Part (List Char) := fun cs =>
  let inside := fun c => isPlain c && c != '\''
  match cs.dropWhile inside with
  | '\'' :: rest => some (cs.takeWhile inside, rest)
  | _ => none

/-- A string on one line. -/
def lineString : Part String
  | '"' :: cs => (basicContent cs.length cs).map fun (s, rest) => (String.ofList s, rest)
  | '\'' :: cs => (literalContent cs).map fun (s, rest) => (String.ofList s, rest)
  | _ => none

-- ============================================================================
-- Strings of several lines
-- ============================================================================

/-- The text after a backslash at the end of a line, without the blank that follows. -/
def lineBreak? (cs : List Char) : Option (List Char) :=
  (newline? (skipSpaces cs)).map fun cs =>
    -- A carriage return is blank only before a line feed.
    let rec skip : List Char → List Char
      | '\r' :: '\n' :: cs => skip cs
      | c :: cs => if isSpace c || c == '\n' then skip cs else c :: cs
      | [] => []
    skip cs

/-- The content of a string of several lines up to its closing quotes, of at most `fuel`
    characters. -/
def linesContent (quote : Char) : Nat → Part (List Char)
  | 0, _ => none
  | _, [] => none
  | fuel + 1, c :: cs =>
    let continued (s cs : List Char) : Option (List Char × List Char) :=
      (linesContent quote fuel cs).map fun (t, rest) => (s ++ t, rest)
    if c = quote then
      let run := ((c :: cs).takeWhile (· = quote)).length
      let rest := (c :: cs).drop run
      if run < 3 then continued (List.replicate run quote) rest
      else if run ≤ 5 then some (List.replicate (run - 3) quote, rest)
      else none
    else if c = '\\' ∧ quote = '"' then
      match lineBreak? cs with
      | some cs => continued [] cs
      | none => (escaped cs).bind fun (c, cs) => continued [c] cs
    else
      match newline? (c :: cs) with
      | some cs => continued ['\n'] cs
      | none => if isPlain c then continued [c] cs else none

/-- A string of several lines after its opening quotes. -/
def linesString (quote : Char) : Part String := fun cs =>
  let cs := (newline? cs).getD cs
  (linesContent quote cs.length cs).map fun (s, rest) => (String.ofList s, rest)

/-- A string. -/
def string : Part String
  | '"' :: '"' :: '"' :: cs => linesString '"' cs
  | '\'' :: '\'' :: '\'' :: cs => linesString '\'' cs
  | cs => lineString cs

-- ============================================================================
-- Keys
-- ============================================================================

/-- Whether a character may stand in a key without quotes. -/
def isBare (c : Char) : Bool :=
  Decimal.isDigit c || ('a' ≤ c && c ≤ 'z') || ('A' ≤ c && c ≤ 'Z') || c == '_' || c == '-'

/-- One name of a key. -/
def keyName : Part String := fun cs =>
  match cs.takeWhile isBare with
  | [] => lineString cs
  | name => some (String.ofList name, cs.dropWhile isBare)

/-- A key: the names of the tables that lead to its place, and the name there. -/
structure Key where
  path : List String
  name : String
deriving DecidableEq, Repr

/-- How many names a key may have. -/
def mostNames : Nat := 79

/-- A key of up to so many names, with points between them and spaces around each. -/
def keyOf : Nat → Part Key
  | 0, _ => none
  | more + 1, cs => do
    let (name, cs) ← keyName (skipSpaces cs)
    match skipSpaces cs with
    | '.' :: cs => do
      let (key, cs) ← keyOf more cs
      some ({ key with path := name :: key.path }, cs)
    | cs => some (⟨[], name⟩, cs)

/-- A key. -/
def key : Part Key :=
  keyOf mostNames

example : key "a . 'b c'.\"d\" =".toList = some (⟨["a", "b c"], "d"⟩, ['=']) := by decide +kernel
example : string "\"\"\"\na\\\n  b\"\"\"\"".toList = some ("ab\"", []) := by decide +kernel

end VersionedStore.Toml
