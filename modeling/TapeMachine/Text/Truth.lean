/-
Words for truth values.

* `Truth.isTrue` knows the usual spellings of a switch that is on; all else is off.
-/
import TapeMachine.Text.Utf8

namespace TapeMachine.Truth

/-- The spellings of a switch that is on. -/
def spellings : List String :=
  ["true", "t", "yes", "y", "on", "1"]

/-- A lower-case letter for an ASCII letter of either case. -/
def lower (c : UInt8) : UInt8 :=
  if 65 ≤ c ∧ c ≤ 90 then c + 32 else c

/-- Whether a word, its white space and the case of its letters apart, spells a switch that is on. -/
def isTrue (word : Bytes) : Bool :=
  spellings.any fun s => utf8 s = (Utf8.trim word).map lower

end TapeMachine.Truth
