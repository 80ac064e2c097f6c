/-
Runwatch.Text.Quoted — texts in double quotes, as diagnostics show them.

A quote and a backslash get a backslash, the common controls their letter,
and every other character that cannot be shown its code point in braces.
-/
import Runwatch.Text.Hex
import Runwatch.Text.PrintableTable

namespace Runwatch.Text

/-- The written form of one character inside quotes. -/
def quotedChar (c : Char) : List Char :=
  if c == '"' then ['\\', '"']
  else if c == '\\' then ['\\', '\\']
  else if c == '\n' then ['\\', 'n']
  else if c == '\r' then ['\\', 'r']
  else if c == '\t' then ['\\', 't']
  else if c == '\x00' then ['\\', '0']
  else if inRanges unprintedRanges c.toNat then
    ['\\', 'u', '\x7b'] ++ hexDigits c.toNat ++ ['\x7d']
  else [c]

/-- `s` between double quotes. -/
def quoted (s : String) : String :=
  String.ofList ('"' :: s.toList.flatMap quotedChar ++ ['"'])

end Runwatch.Text
