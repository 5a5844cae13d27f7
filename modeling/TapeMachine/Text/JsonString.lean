/-
Strings of a data format that is also read inside web pages.

* `JsonString.quote` writes a text between quotes.

Signs that a page could take for markup are written as escapes, and so are the two line separators that a
script could take for line ends.
-/
import TapeMachine.Text.Quoted

namespace TapeMachine.JsonString

/-- A character as an escape with four hexadecimal digits. -/
def unicodeEscape (c : Char) : List Char :=
  '\\' :: 'u' :: Quoted.hexPadded 4 c.toNat

/-- Whether a character without a short escape is written as an escape with digits. -/
def isEscaped (c : Char) : Bool :=
  c.toNat < 0x20 || c = '<' || c = '>' || c = '&' || c.toNat = 0x2028 || c.toNat = 0x2029

/-- A character inside quotes. -/
def escape (c : Char) : List Char :=
  if c = '"' then ['\\', '"']
  else if c = '\\' then ['\\', '\\']
  else if c = '\n' then ['\\', 'n']
  else if c = '\r' then ['\\', 'r']
  else if c = '\t' then ['\\', 't']
  else if c.toNat = 8 then ['\\', 'b']
  else if c.toNat = 12 then ['\\', 'f']
  else if isEscaped c then unicodeEscape c
  else [c]

/-- A text between quotes. -/
def quote (s : String) : String :=
  "\"" ++ String.ofList (s.toList.flatMap escape) ++ "\""

end TapeMachine.JsonString
