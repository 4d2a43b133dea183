/-
  VersionedStore.Toml.Moment

  Dates and times of TOML.  Nothing here computes with them, so they are checked
  and kept as text in one normal form: `T` between date and time, `Z` in upper
  case, up to nine decimals of a second and no zeros at their end.
-/
import VersionedStore.Document.Basic
import VersionedStore.Instant.Basic
import VersionedStore.Toml.Space

namespace VersionedStore.Toml

/-- A number of exactly so many digits in a range. -/
def fixedNumber (width least greatest : Nat) : Part Nat := fun cs => do
  let ds := cs.take width
  let n ← Decimal.digits? ds
  if ds.length = width ∧ least ≤ n ∧ n ≤ greatest then some (n, cs.drop width) else none

/-- A given character. -/
def mark? (c : Char) : List Char → Option (List Char)
  | d :: cs => if d = c then some cs else none
  | [] => none

/-- A day of the calendar. -/
def date : Part (List Char) := fun cs => do
  let (year, cs) ← fixedNumber 4 0 9999 cs
  let (month, cs) ← fixedNumber 2 1 12 (← mark? '-' cs)
  let (day, cs) ← fixedNumber 2 1 31 (← mark? '-' cs)
  if Date.isValid ⟨year, month, day⟩ then
    some (Decimal.padded 4 year ++ '-' :: Decimal.padded 2 month ++ '-' :: Decimal.padded 2 day, cs)
  else none

/-- The decimals of a second with their point, if there are any. -/
def secondDecimals (cs : List Char) : List Char × List Char :=
  match cs with
  | '.' :: rest =>
    match Decimal.run rest with
    | ([], _) => ([], cs)
    | (ds, rest) =>
      match ((ds.take 9).reverse.dropWhile (· = '0')).reverse with
      | [] => ([], rest)
      | ds => ('.' :: ds, rest)
  | _ => ([], cs)

/-- A time of day. -/
def timeOfDay : Part (List Char) := fun cs => do
  let (hour, cs) ← fixedNumber 2 0 23 cs
  let (minute, cs) ← fixedNumber 2 0 59 (← mark? ':' cs)
  let (second, cs) ← fixedNumber 2 0 60 (← mark? ':' cs)
  let (decimals, cs) := secondDecimals cs
  some (Decimal.padded 2 hour ++ ':' :: Decimal.padded 2 minute ++ ':' :: Decimal.padded 2 second
    ++ decimals, cs)

/-- How far local time is ahead of UTC. -/
def offset : Part (List Char)
  | 'Z' :: cs | 'z' :: cs => some (['Z'], cs)
  | sign :: cs => do
    if sign ≠ '+' ∧ sign ≠ '-' then none
    let (hour, cs) ← fixedNumber 2 0 23 cs
    let (minute, cs) ← fixedNumber 2 0 59 (← mark? ':' cs)
    let sign := if hour = 0 ∧ minute = 0 then '+' else sign
    some (sign :: Decimal.padded 2 hour ++ ':' :: Decimal.padded 2 minute, cs)
  | [] => none

/-- The time that follows a date, with its offset. -/
def timeAfterDate : Part (List Char)
  | 'T' :: cs | 't' :: cs | ' ' :: cs => do
    let (time, cs) ← timeOfDay cs
    match offset cs with
    | some (offset, cs) => some ('T' :: time ++ offset, cs)
    | none => some ('T' :: time, cs)
  | _ => none

/-- The name under which a date or time is found in a document. -/
def momentKey : String := "$__toml_private_datetime"

/-- A date or time, as the map of its text under `momentKey`. -/
def moment : Part Document := fun cs => do
  let (text, cs) ←
    match date cs with
    | some (date, cs) =>
      match timeAfterDate cs with
      | some (time, cs) => some (date ++ time, cs)
      | none => some (date, cs)
    | none => timeOfDay cs
  some (.object [(momentKey, .string (String.ofList text))] .closed, cs)

end VersionedStore.Toml
