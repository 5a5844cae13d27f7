/-
The nearest of several spellings.

* `Spelling.distance` is the number of bytes to put in, take out or change on the way from one text to
  another;
* `Spelling.nearest` is the candidate that a misspelt name most likely stands for.
-/
import TapeMachine.Text.Bytes
import TapeMachine.Text.Case

namespace TapeMachine.Spelling

/-- The distances from a text to all beginnings of another, from those of the text without its last
byte `b`. `left` is the distance to the beginning before, `corner` that of the shorter text to it. -/
def row (b : UInt8) (corner left : Nat) : Bytes → List Nat → List Nat
  | c :: other, above :: rest =>
    let d := min (corner + if b = c then 0 else 1) (min (above + 1) (left + 1))
    d :: row b above d other rest
  | _, _ => []

/-- All distances from a text to the beginnings of another. -/
def rows (other : Bytes) : Bytes → Nat → List Nat → List Nat
  | [], first, distances => first :: distances
  | b :: rest, first, distances => rows other rest (first + 1) (row b first (first + 1) other distances)

/-- The number of single-byte changes between two texts. -/
def distance (a b : Bytes) : Nat :=
  (rows b a 0 ((List.range b.length).map (· + 1))).getLastD 0

/-- A name without underscores and in small letters. -/
def fold (name : String) : Bytes :=
  utf8 (String.ofList ((name.toList.filter (· ≠ '_')).map Case.lower))

/-- The first of the nearest candidates to a name, if less than half of the name has to change. -/
def nearest (name : String) (candidates : List String) : Option String :=
  let folded := fold name
  (candidates.foldl (fun (best, limit) candidate =>
    let d := distance folded (fold candidate)
    if d < limit then (some candidate, d) else (best, limit)) (none, (folded.length + 1) / 2)).1

end TapeMachine.Spelling
