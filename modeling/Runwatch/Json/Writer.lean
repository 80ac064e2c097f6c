/-
Runwatch.Json.Writer — writing JSON text.

The compact form has no blanks. Inside strings a quote, a backslash and the
controls are escaped, the common ones by a letter, and nothing else is. A
double is written with the fewest digits that read back, always with a
point or an exponent.

The writers put their text in front of what follows, so that a writer and a
reader can be compared with any rest behind them.
-/
import Runwatch.Json.Value
import Runwatch.Double.Shortest
import Runwatch.Text.Hex

namespace Runwatch.Json

/-- Doubles from `10 ^ -5` to below `10 ^ 16` are written without exponent. -/
def doubleRange : PointRange := ⟨-4, 16⟩

/-- The written form of one character of a string. -/
def escapedChar (c : Char) : List Char :=
  if c == '"' then ['\\', '"']
  else if c == '\\' then ['\\', '\\']
  else if c == '\x08' then ['\\', 'b']
  else if c == '\x0c' then ['\\', 'f']
  else if c == '\n' then ['\\', 'n']
  else if c == '\r' then ['\\', 'r']
  else if c == '\t' then ['\\', 't']
  else if c.toNat < 0x20 then '\\' :: 'u' :: Text.hexPadded 4 c.toNat
  else [c]

/-- Puts the written form of a string in front of `rest`. -/
def stringOnto (s : String) (rest : List Char) : List Char :=
  '"' :: s.toList.flatMap escapedChar ++ '"' :: rest

/-- The written form of a number. -/
def numberChars : Number → List Char
  | .natural n => Text.decimalChars n.toNat
  | .negative below => '-' :: Text.decimalChars (below.val + 1)
  | .double d => d.chars doubleRange

mutual

/-- Puts the compact form of a value in front of `rest`. -/
def valueOnto : Value → List Char → List Char
  | .null, rest => 'n' :: 'u' :: 'l' :: 'l' :: rest
  | .bool true, rest => 't' :: 'r' :: 'u' :: 'e' :: rest
  | .bool false, rest => 'f' :: 'a' :: 'l' :: 's' :: 'e' :: rest
  | .number n, rest => numberChars n ++ rest
  | .string s, rest => stringOnto s rest
  | .array [], rest => '[' :: ']' :: rest
  | .array (v :: vs), rest => '[' :: valueOnto v (elementsOnto vs rest)
  | .object [], rest => '\x7b' :: '\x7d' :: rest
  | .object ((name, v) :: ms), rest =>
    '\x7b' :: stringOnto name (':' :: valueOnto v (membersOnto ms rest))

/-- Puts the elements after the first one, and the closing bracket, in
front of `rest`. -/
def elementsOnto : List Value → List Char → List Char
  | [], rest => ']' :: rest
  | v :: vs, rest => ',' :: valueOnto v (elementsOnto vs rest)

/-- Puts the members after the first one, and the closing brace, in front
of `rest`. -/
def membersOnto : List (String × Value) → List Char → List Char
  | [], rest => '\x7d' :: rest
  | (name, v) :: ms, rest => ',' :: stringOnto name (':' :: valueOnto v (membersOnto ms rest))

end

/-- The compact text of a value. -/
def compact (v : Value) : String := String.ofList (valueOnto v [])

end Runwatch.Json
