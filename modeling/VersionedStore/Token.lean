/-
  VersionedStore.Token

  Version tokens in the form in which they travel in request headers: a number,
  bare or between quotes, or a weak tag, which is `W/` and a quoted number.
  Blanks around the whole are ignored, and nothing else is: no sign, no blank
  inside, no second pair of quotes.
-/
import VersionedStore.Decimal.Digits
import VersionedStore.Identity
import VersionedStore.Text.Blank
import VersionedStore.Text.Quoted

namespace VersionedStore.Version

/-- A text that is no version token, as it was given. -/
structure Malformed where
  text : String
deriving DecidableEq, Repr

/-- The wording of the refusal. -/
def Malformed.message (e : Malformed) : String :=
  "invalid version token: " ++ Text.quote e.text

/-- The token whose number is written by these digits. -/
def ofDigits? (cs : List Char) : Option Version := do
  let n ← Decimal.digits? cs
  if n < UInt64.size then some ⟨UInt64.ofNat n⟩ else none

/-- The token after an opening quote, up to the closing quote at the very end. -/
def ofQuoted? (cs : List Char) : Option Version :=
  if cs.getLast? = some '"' then ofDigits? cs.dropLast else none

/-- The token in a header tag without blanks around it. -/
def ofTag? : List Char → Option Version
  | 'W' :: '/' :: '"' :: cs => ofQuoted? cs
  | '"' :: cs => ofQuoted? cs
  | cs => ofDigits? cs

/-- The token that a text names. -/
def ofText (text : String) : Except Malformed Version :=
  match ofTag? (Text.trim text.toList) with
  | some v => .ok v
  | none => .error ⟨text⟩

end VersionedStore.Version
