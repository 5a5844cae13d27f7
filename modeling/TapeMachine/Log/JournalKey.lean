/-
Field names of a system journal: upper-case letters, digits and underscores.

* `Log.journalKey` makes a field name of any key.
-/
import TapeMachine.Text.Utf8

namespace TapeMachine.Log

/-- The upper-case form of a character, where that form is an ASCII letter. The dotless i and the
long s are the only such letters outside ASCII. -/
def upperAscii (c : Char) : Char :=
  if c = Char.ofNat 0x131 then 'I' else if c = Char.ofNat 0x17F then 'S' else c.toUpper

/-- A character of a field name: anything but a letter or digit becomes an underscore. -/
def journalChar (c : Char) : Char :=
  let c := upperAscii c
  if c.isUpper || c.isDigit then c else '_'

/-- A field name for a key. -/
def journalKey (key : Bytes) : String :=
  String.ofList ((Utf8.replaceInvalid key).map journalChar)

end TapeMachine.Log
