/-
YAML documents made of mappings, texts, numbers and rows of numbers.

* `Yaml.Node.render` writes a mapping with two columns of indentation per level.
-/
import TapeMachine.Yaml.Scalar

namespace TapeMachine.Yaml

/-- A value in a document. -/
inductive Node where
  | int (value : Int)
  | text (value : Bytes)
  /-- Numbers on one line between brackets. -/
  | row (values : List Nat)
  | mapping (fields : List (String × Node))

namespace Node

/-- Numbers on one line between brackets. -/
def renderRow (values : List Nat) : String :=
  "[" ++ ", ".intercalate (values.map decimal) ++ "]"

mutual

/-- Writes a value behind the colon of its key, where the key is indented by `indent`. -/
def renderValue (indent : Nat) : Node → Bytes
  | int n => utf8 (" " ++ decimalInt n ++ "\n")
  | text s => 32 :: Scalar.render (indent + 2) s
  | row values => utf8 (" " ++ renderRow values ++ "\n")
  | mapping fields => 10 :: renderFields (indent + 2) fields

/-- Writes the fields of a mapping, one below the other. -/
def renderFields (indent : Nat) : List (String × Node) → Bytes
  | [] => []
  | (key, value) :: rest =>
    List.replicate indent 32 ++ utf8 key ++ 58 :: renderValue indent value ++
      renderFields indent rest

end

end Node

end TapeMachine.Yaml
