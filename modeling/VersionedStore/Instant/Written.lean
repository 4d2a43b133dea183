/-
  VersionedStore.Instant.Written

  Instants as text in the form of RFC 3339.  `text` writes UTC with a final `Z`
  and the fewest of zero, three, six or nine decimals of a second that are exact.
  `ofText` is lenient: one or two digits will do for all but the year, blanks may
  stand before a number or a sign, the year may carry a sign and then has any
  number of digits, and the time zone may be `UTC` or lack its colon.

  Encoders of what holds an instant are given the two as a `Codec`.
-/
import VersionedStore.Instant.Basic
import VersionedStore.Text.Blank
import VersionedStore.Word

namespace VersionedStore.Instant

-- ============================================================================
-- Writing
-- ============================================================================

/-- The year: four digits, with a sign if it has more or is before the year zero. -/
def yearText (year : Int) : List Char :=
  if 0 ≤ year ∧ year ≤ 9999 then Decimal.padded 4 year.toNat
  else (if year < 0 then '-' else '+') :: Decimal.padded 4 year.natAbs

/-- The decimals of a second, after their point. -/
def fractionText (nanoseconds : Nat) : List Char :=
  if nanoseconds = 0 then []
  else if nanoseconds % nanosPerMilli = 0 then
    '.' :: Decimal.padded 3 (nanoseconds / nanosPerMilli)
  else if nanoseconds % nanosPerMicro = 0 then
    '.' :: Decimal.padded 6 (nanoseconds / nanosPerMicro)
  else '.' :: Decimal.padded 9 nanoseconds

/-- The instant in UTC. -/
def text (t : Instant) : String :=
  let d := t.date
  let s := t.secondOfDay
  let leap := t.nanoseconds / nanosPerSecond
  String.ofList <|
    yearText d.year ++ '-' :: Decimal.padded 2 d.month ++ '-' :: Decimal.padded 2 d.day
    ++ 'T' :: Decimal.padded 2 (s / 3600) ++ ':' :: Decimal.padded 2 (s / 60 % 60)
    ++ ':' :: Decimal.padded 2 (s % 60 + leap) ++ fractionText (t.nanoseconds % nanosPerSecond)
    ++ ['Z']

-- ============================================================================
-- Reading
-- ============================================================================

/-- Why a text is no instant. -/
inductive Fault where
  /-- A part is beyond its range, or the calendar lacks the day. -/
  | outOfRange
  /-- The instant lies outside the calendar once it is moved to UTC. -/
  | impossible
  /-- The text ends too early. -/
  | premature
  /-- A character stands where it cannot. -/
  | invalid
  /-- The text goes on after the time zone. -/
  | trailing
deriving DecidableEq, Repr

/-- The wording of a fault. -/
def Fault.message : Fault → String
  | .outOfRange => "input is out of range"
  | .impossible => "no possible date and time matching input"
  | .premature => "premature end of input"
  | .invalid => "input contains invalid characters"
  | .trailing => "trailing input"

/-- A reader of a part of the text, which hands on the rest. -/
abbrev Part (α : Type) := List Char → Except Fault (α × List Char)

/-- A number of at least one digit, and at most `most` if a bound is given. -/
def number (most : Option Nat) : Part Nat := fun cs =>
  let ds := (cs.take (most.getD cs.length)).takeWhile Decimal.isDigit
  if cs.isEmpty then .error .premature
  else if ds.isEmpty then .error .invalid
  else if (int64? (Decimal.value ds)).isNone then .error .outOfRange
  else .ok (Decimal.value ds, cs.drop ds.length)

/-- A number of one or two digits in a range, with blanks in front of it. -/
def bounded (least greatest : Nat) : Part Nat := fun cs => do
  let (n, cs) ← number (some 2) (Text.trimStart cs)
  if least ≤ n ∧ n ≤ greatest then .ok (n, cs) else .error .outOfRange

/-- The year: up to four digits, or any number of them after a sign. -/
def year : Part Int := fun cs => do
  let signed (negative : Bool) (cs : List Char) : Except Fault (Int × List Char) := do
    let (n, cs) ← number none cs
    .ok (if negative then -(n : Int) else n, cs)
  let (y, cs) ←
    match Text.trimStart cs with
    | '-' :: cs => signed true cs
    | '+' :: cs => signed false cs
    | cs => do
      let (n, cs) ← number (some 4) cs
      .ok ((n : Int), cs)
  if -0x80000000 ≤ y ∧ y < 0x80000000 then .ok (y, cs) else .error .outOfRange

/-- A given character, with blanks in front of it. -/
def mark (c : Char) (cs : List Char) : Except Fault (List Char) :=
  match Text.trimStart cs with
  | [] => .error .premature
  | d :: cs => if d = c then .ok cs else .error .invalid

/-- The decimals of a second in nanoseconds; digits after the ninth are passed over. -/
def decimals : Part Nat := fun cs =>
  match cs with
  | '.' :: cs => do
    let (n, rest) ← number (some 9) cs
    let width := cs.length - rest.length
    .ok (n * power 10 (9 - width), rest.dropWhile Decimal.isDigit)
  | cs => .ok (0, cs)

/-- Two characters, both of which should be digits. -/
def digitPair (cs : List Char) : Except Fault ((Nat × Nat) × List Char) :=
  match cs with
  | [] => .error .premature
  | [c] => if c.utf8Size < 2 then .error .premature else .error .invalid
  | c :: d :: rest =>
    if Decimal.isDigit c && Decimal.isDigit d then
      .ok ((Decimal.digitValue c, Decimal.digitValue d), rest)
    else .error .invalid

/-- The hours and minutes of a time zone, in seconds. -/
def zoneTime : Part Nat := fun cs => do
  let ((h, h'), cs) ← digitPair cs
  let ((m, m'), cs) ← digitPair (cs.dropWhile fun c => c = ':' || Text.isBlank c)
  if m < 6 then .ok ((10 * h + h') * 3600 + (10 * m + m') * 60, cs) else .error .outOfRange

/-- The time zone: seconds ahead of UTC. -/
def zone : Part Int := fun cs =>
  let minus (cs : List Char) : Except Fault (Int × List Char) := do
    let (n, cs) ← zoneTime cs
    .ok (-(n : Int), cs)
  match cs with
  | [] => .error .premature
  | 'Z' :: cs | 'z' :: cs => .ok (0, cs)
  | '+' :: cs => do
    let (n, cs) ← zoneTime cs
    .ok ((n : Int), cs)
  | '-' :: cs => minus cs
  | '\u2212' :: cs => minus cs
  | cs =>
    if (cs.take 3).map Char.toLower = ['u', 't', 'c'] then .ok (0, cs.drop 3)
    else .error .invalid

/-- The character between the day and the time of day. -/
def separator : List Char → Except Fault (List Char)
  | [] => .error .premature
  | 'T' :: cs | 't' :: cs | ' ' :: cs => .ok cs
  | _ :: _ => .error .invalid

/-- The instant that a text names. -/
def ofText (text : String) : Except Fault Instant := do
  let (year, cs) ← year text.toList
  let (month, cs) ← bounded 1 12 (← mark '-' cs)
  let (day, cs) ← bounded 1 31 (← mark '-' cs)
  let (hour, cs) ← bounded 0 23 (← separator cs)
  let (minute, cs) ← bounded 0 59 (← mark ':' cs)
  let (second, cs) ← bounded 0 60 (← mark ':' cs)
  let (nanoseconds, cs) ← decimals cs
  let (offset, cs) ← zone (Text.trimStart cs)
  if !(Text.trimStart cs).isEmpty then .error .trailing
  let date : Date := ⟨year, month, day⟩
  if !date.isValid || (secondsPerDay : Int) ≤ offset.natAbs then .error .outOfRange
  -- The second 60 is the second 59 and one second of nanoseconds more.
  let leap := second / 60
  let seconds := date.dayNumber * secondsPerDay + (hour * 3600 + minute * 60 + second - leap : Nat)
    - offset
  let year := (Date.ofDayNumber (seconds / secondsPerDay)).year
  if year < Date.firstYear ∨ Date.lastYear < year then .error .impossible
  let total := nanoseconds + leap * nanosPerSecond
  if h : total < 2 * nanosPerSecond then .ok ⟨seconds, total, h⟩ else .error .outOfRange

/-- How instants are written, and which instant a text names. -/
class Codec where
  write : Instant → String
  read : String → Except Fault Instant

/-- The form of RFC 3339. -/
instance Codec.rfc3339 : Codec where
  write := text
  read := ofText

example : (ofText "2024-01-01T00:00:00+02:00").toOption.map text = some "2023-12-31T22:00:00Z" := by
  decide +kernel
example : (ofText "2016-12-31T23:59:60Z").toOption.map text = some "2016-12-31T23:59:60Z" := by
  decide +kernel
example : ofText "2023-02-29T00:00:00Z" = .error .outOfRange := by rfl

end VersionedStore.Instant
