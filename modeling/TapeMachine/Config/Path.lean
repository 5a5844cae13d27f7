/-
Paths into settings files: names or quoted labels with dots between them, and indices or quoted labels in
brackets. Hidden fields have no path.

* `Path.parse?` reads a path; the empty text leads to the whole file;
* `Value.get?` is the value at a path.
-/
import TapeMachine.Config.Eval

namespace TapeMachine.Config

namespace Path

/-- The largest index. -/
def maxIndex : Nat := Nat.pow 2 28 - 1

/-- A label of a path, which must not be hidden. -/
def label? : Label → Option Label
  | .hidden _ => none
  | label => some label

/-- An atom as a label. -/
def atomLabel? : Atom → Option Label
  | .int n => if 0 ≤ n && n ≤ maxIndex then some (.item n.toNat) else none
  | .text s => some (.field s)
  | _ => none

/-- The labels of a term that is a path. -/
def labels? : Term → Option (List Label)
  | .name name => (label? (.ofName name)).map ([·])
  | .atom a => (atomLabel? a).map ([·])
  | .index term (.atom a) => do return (← labels? term) ++ [← atomLabel? a]
  | .select term label => do return (← labels? term) ++ [← label? label]
  | _ => none

/-- The labels of a path. -/
def parse? (path : String) : Option (List Label) :=
  if path.isEmpty then some [] else (Term.parseOne? path.toList).bind labels?

end Path

/-- The value at a path. -/
def Value.get? (value : Value) (path : String) : Option Value :=
  (Path.parse? path).bind value.follow?

end TapeMachine.Config
