/-
  VersionedStore.Toml.Value

  Values of TOML.  An array may stretch over lines and end with a comma; an
  inline table may do neither.  Arrays and inline tables nest `maxDepth` deep.
-/
import VersionedStore.Toml.Moment
import VersionedStore.Toml.Number
import VersionedStore.Toml.Table

namespace VersionedStore.Toml

/-- How many arrays and inline tables may be nested in one another. -/
def maxDepth : Nat := 79

/-- The truth values. -/
def bool : Part Document
  | 't' :: 'r' :: 'u' :: 'e' :: cs => some (.bool true, cs)
  | 'f' :: 'a' :: 'l' :: 's' :: 'e' :: cs => some (.bool false, cs)
  | _ => none

/-- A value that holds no other values. -/
def scalar : Part Document := fun cs =>
  ((string cs).map fun (s, rest) => (.string s, rest))
    <|> bool cs <|> moment cs <|> float cs <|> integer cs

/-- The items of an array after its opening bracket, of at most `fuel` items. -/
def arrayItems (value : Part Document) : Nat → Part (List Document)
  | 0, _ => none
  | fuel + 1, cs =>
    match skipBlank cs with
    | ']' :: cs => some ([], cs)
    | cs => do
      let (d, cs) ← value cs
      match skipBlank cs with
      | ',' :: cs => do
        let (ds, cs) ← arrayItems value fuel cs
        some (d :: ds, cs)
      | ']' :: cs => some ([d], cs)
      | _ => none

/-- A key and its value. -/
def pair (value : Part Document) : Part (Key × Document) := fun cs => do
  let (key, cs) ← key cs
  let (d, cs) ← value (skipSpaces (← mark? '=' cs))
  some ((key, d), skipSpaces cs)

/-- One or more pairs up to the closing brace of an inline table, of at most `fuel` pairs. -/
def inlinePairs (value : Part Document) : Nat → Part (List (Key × Document))
  | 0, _ => none
  | fuel + 1, cs => do
    let (p, cs) ← pair value cs
    match cs with
    | ',' :: cs => do
      let (ps, cs) ← inlinePairs value fuel cs
      some (p :: ps, cs)
    | '\x7d' :: cs => some ([p], cs)
    | _ => none

/-- An inline table after its opening brace. -/
def inlineTable (value : Part Document) : Part Document := fun cs => do
  let (pairs, cs) ←
    match skipSpaces cs with
    | '\x7d' :: cs => some ([], cs)
    | cs => inlinePairs value cs.length cs
  let entries ← Entries.putAll pairs []
  some (entries.document, cs)

/-- A value in which arrays and inline tables nest at most `depth` deep. -/
def valueWithin : Nat → Part Document
  | 0, cs => scalar cs
  | depth + 1, cs =>
    match cs with
    | '[' :: cs => do
      let (ds, cs) ← arrayItems (valueWithin depth) cs.length cs
      some (.array ds .closed, cs)
    | '\x7b' :: cs => inlineTable (valueWithin depth) cs
    | cs => scalar cs

/-- A value. -/
def value : Part Document :=
  valueWithin maxDepth

end VersionedStore.Toml
