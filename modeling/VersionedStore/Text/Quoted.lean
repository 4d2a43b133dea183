/-
  VersionedStore.Text.Quoted

  Text between double quotes, as messages show it: the quote, the backslash and
  the common controls have short escapes, any other unprintable or extending
  character is written by its code point in braces, and all else stands for
  itself.
-/
import VersionedStore.Text.Numeral
import VersionedStore.Text.Unprintable

namespace VersionedStore.Text

/-- How one character is written between quotes. -/
def quotedChar (c : Char) : List Char :=
  match c with
  | '"' => ['\\', '"']
  | '\\' => ['\\', '\\']
  | '\n' => ['\\', 'n']
  | '\r' => ['\\', 'r']
  | '\t' => ['\\', 't']
  | '\x00' => ['\\', '0']
  | c => if isUnprintable c then ['\\', 'u', '\x7b'] ++ hexDigits c.toNat ++ ['\x7d'] else [c]

/-- The text between double quotes. -/
def quote (s : String) : String :=
  String.ofList ('"' :: s.toList.flatMap quotedChar ++ ['"'])

example : quote "a\"b" = "\"a\\\"b\"" := by decide +kernel
example : quote "e\u0301" = "\"e\\u\x7b301\x7d\"" := by decide +kernel

end VersionedStore.Text
