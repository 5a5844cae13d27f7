/-
Sets of characters, given by the code points at which membership changes.

* `CodePointSet.contains` decides membership by a binary search;
* `CodePointSet.ofParts` joins the parts of a long table.
-/
namespace TapeMachine

/-- A set of code points: the first entry is in it, the second is not, and so on, in increasing order. -/
structure CodePointSet where
  changes : Array Nat

namespace CodePointSet

/-- The set with the parts of a table, in order. -/
def ofParts (parts : List (Array Nat)) : CodePointSet :=
  ⟨parts.foldl (· ++ ·) #[]⟩

/-- The number of entries up to `n` of a sorted array, searched between `lo` and `hi`. -/
def countUpTo (a : Array Nat) (n lo hi : Nat) : Nat :=
  if hi ≤ lo then lo
  else
    let mid := (lo + hi) / 2
    if (a[mid]?).any (· ≤ n) then countUpTo a n (mid + 1) hi else countUpTo a n lo mid
termination_by hi - lo

/-- Whether a character is in the set. -/
def contains (s : CodePointSet) (c : Char) : Bool :=
  countUpTo s.changes c.toNat 0 s.changes.size % 2 = 1

end CodePointSet

end TapeMachine
