/-
The eight commands of a tape program.

* `Command.toByte` and `Command.ofByte?` relate a command to the source byte that stands for it;
* `Command.ofByte?_eq_some_iff` says that the two are inverse to each other.
-/
import TapeMachine.Text.Bytes

namespace TapeMachine

/-- A command of a tape program. -/
inductive Command where
  | moveRight
  | moveLeft
  | increment
  | decrement
  | write
  | read
  | loopStart
  | loopEnd
deriving DecidableEq, Repr, Inhabited

namespace Command

/-- The source byte that stands for a command. -/
def toByte : Command → UInt8
  | moveRight => 62
  | moveLeft => 60
  | increment => 43
  | decrement => 45
  | write => 46
  | read => 44
  | loopStart => 91
  | loopEnd => 93

/-- The command that a source byte stands for; every other byte is a comment. -/
def ofByte? (b : UInt8) : Option Command :=
  if b = 62 then some moveRight
  else if b = 60 then some moveLeft
  else if b = 43 then some increment
  else if b = 45 then some decrement
  else if b = 46 then some write
  else if b = 44 then some read
  else if b = 91 then some loopStart
  else if b = 93 then some loopEnd
  else none

@[simp] theorem ofByte?_toByte (c : Command) : ofByte? c.toByte = some c := by
  cases c <;> rfl

theorem toByte_of_ofByte? {b : UInt8} {c : Command} (h : ofByte? b = some c) : c.toByte = b := by
  unfold ofByte? at h
  grind [toByte]

theorem ofByte?_eq_some_iff {b : UInt8} {c : Command} : ofByte? b = some c ↔ c.toByte = b :=
  ⟨toByte_of_ofByte?, fun h => h ▸ ofByte?_toByte c⟩

/-- Whether a byte stands for a command. -/
def isCommand (b : UInt8) : Bool :=
  (ofByte? b).isSome

/-- The character with the code point of a source byte. -/
def symbolOf (b : UInt8) : String :=
  String.singleton (Char.ofNat b.toNat)

/-- The character that stands for a command. -/
def symbol (c : Command) : String :=
  symbolOf c.toByte

end Command

end TapeMachine
