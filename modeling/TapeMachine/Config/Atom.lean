/-
Atoms: values without parts, and comparisons with them.

A whole number is never equal to one with a point, but numbers of both kinds compare by their value.

* `Atom.order?` compares two atoms, if they can be compared;
* `Bound.admits` tests an atom against a limit.
-/
import TapeMachine.Text.Bytes
import TapeMachine.Text.Pattern

namespace TapeMachine.Config

/-- The kinds of values. -/
inductive Kind where
  | null
  | bool
  | int
  | float
  | text
  | bytes
  | list
  | record
deriving DecidableEq, Repr

namespace Kind

/-- All kinds. -/
def all : List Kind :=
  [null, bool, int, float, text, bytes, list, record]

/-- The kinds of numbers. -/
def numbers : List Kind :=
  [int, float]

end Kind

/-- A value without parts. -/
inductive Atom where
  | null
  | bool (value : Bool)
  | int (value : Int)
  | float (value : Rat)
  | text (value : String)
  | bytes (value : Bytes)
deriving DecidableEq

namespace Atom

/-- The kind of an atom. -/
def kind : Atom → Kind
  | null => .null
  | bool _ => .bool
  | int _ => .int
  | float _ => .float
  | text _ => .text
  | bytes _ => .bytes

/-- The value of a number. -/
def number? : Atom → Option Rat
  | int value => some value
  | float value => some value
  | _ => none

/-- How bytes compare. -/
def orderBytes : Bytes → Bytes → Ordering
  | [], [] => .eq
  | [], _ :: _ => .lt
  | _ :: _, [] => .gt
  | a :: as, b :: bs => (compare a b).then (orderBytes as bs)

/-- How two numbers compare. -/
def orderNumbers (a b : Rat) : Ordering :=
  if a < b then .lt else if a = b then .eq else .gt

/-- How two atoms compare: numbers by their value, texts and bytes by their bytes. -/
def order? (a b : Atom) : Option Ordering :=
  match a, b with
  | text a, text b => some (orderBytes (utf8 a) (utf8 b))
  | bytes a, bytes b => some (orderBytes a b)
  | a, b => do return orderNumbers (← a.number?) (← b.number?)

/-- Whether two atoms have the same value. -/
def same (a b : Atom) : Bool :=
  a.order? b = some .eq || a = b

end Atom

/-- A comparison, or a test of a text against a pattern. -/
inductive Comparison where
  | greater
  | atLeast
  | less
  | atMost
  | different
  | meets (positive : Bool)
deriving DecidableEq, Repr

namespace Comparison

/-- Whether a comparison holds of two values that compare in some way. -/
def holds : Comparison → Ordering → Bool
  | greater, o => o = .gt
  | atLeast, o => o ≠ .lt
  | less, o => o = .lt
  | atMost, o => o ≠ .gt
  | different, o => o ≠ .eq
  | meets _, _ => false

/-- Whether a text meets a pattern, if both are texts and the pattern can be read. -/
def meets? : Atom → Atom → Option Bool
  | .text s, .text pattern => (Pattern.parse? pattern).map (·.occursIn s.toList)
  | _, _ => none

/-- Whether a comparison holds of two atoms. -/
def admits (c : Comparison) (a limit : Atom) : Bool :=
  match c with
  | .meets positive => meets? a limit = some positive
  | c =>
    match a.order? limit with
    | some o => c.holds o
    | none => c = .different && a ≠ limit

/-- Whether a comparison can be made with a limit. -/
def canUse : Comparison → Atom → Bool
  | .meets _, limit => (meets? (.text "") limit).isSome
  | _, _ => true

end Comparison

/-- A constraint on atoms: how they compare with a limit. -/
structure Bound where
  comparison : Comparison
  limit : Atom
deriving DecidableEq

namespace Bound

/-- The kinds of values that a bound allows: those that can be compared with the limit. -/
def kinds (b : Bound) : List Kind :=
  match b.limit with
  | .null => if b.comparison = .different then Kind.all.filter (· ≠ .null) else []
  | .bool _ => []
  | .int _ | .float _ => Kind.numbers
  | .text _ => [.text]
  | .bytes _ => [.bytes]

/-- Whether an atom is within a bound. -/
def admits (b : Bound) (a : Atom) : Bool :=
  b.kinds.contains a.kind && b.comparison.admits a b.limit

end Bound

end TapeMachine.Config
