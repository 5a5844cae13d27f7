/-
Languages of settings files.

* `Language` is what loading settings files needs of their language: reading a text, the one value of two,
  whether a value is well-formed, and what is found at a path;
* `language` is the one that is spoken here.
-/
import TapeMachine.Config.Path

namespace TapeMachine.Config

/-- A language of settings files, as far as loading and looking up ask for it. -/
structure Language where
  Value : Type
  Error : Type
  /-- The value of a text. -/
  compileString (text : String) : Except Error Value
  /-- The value of the content of a file, which is named in messages. -/
  compileBytes (filename content : Bytes) : Except Error Value
  /-- The one value of two, which may be ill-formed. -/
  unify : Value → Value → Value
  /-- Whether a value is well-formed throughout. -/
  validate : Value → Except Error Unit
  /-- What is at a path, if something is there: a value, or an error in its place. -/
  lookupPath (value : Value) (path : String) : Option (Except Error Value)
  /-- Reads a value as a whole number in a word. -/
  int? : Value → Option Int

/-- The language of the values that `Value.parse` reads. -/
@[reducible]
def language : Language where
  Value := Value
  Error := Error
  compileString text := Value.parseText text.toList
  compileBytes _ content := Value.parse content
  unify := Value.unify
  validate value := if value.isConflict then .error .refused else .ok ()
  lookupPath value path := (value.get? path).map .ok
  int? := Value.int?

end TapeMachine.Config
