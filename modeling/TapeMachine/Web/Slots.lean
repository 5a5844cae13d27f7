/-
Slots: a fixed number of places that streams take and give back.

* `Slots.acquire?` takes a place if one is free;
* `Slots.release?` gives one back if one is taken.
-/
namespace TapeMachine

/-- Places, of which some are in use. -/
structure Slots where
  capacity : Nat
  used : Nat := 0
deriving DecidableEq, Repr

namespace Slots

/-- Places with none in use, if their number is not negative. -/
def new? (capacity : Int) : Option Slots :=
  if capacity < 0 then none else some { capacity := capacity.toNat }

/-- Takes a place, if one is free. -/
def acquire? (s : Slots) : Option Slots :=
  if s.used < s.capacity then some { s with used := s.used + 1 } else none

/-- Gives a place back, if one is in use. -/
def release? (s : Slots) : Option Slots :=
  if s.used = 0 then none else some { s with used := s.used - 1 }

end Slots

end TapeMachine
