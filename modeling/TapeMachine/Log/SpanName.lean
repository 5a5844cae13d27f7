/-
A supply of names for spans.

* `SpanName.ofSeed` numbers spans from a seed on and writes the numbers with letters and digits.
-/
import TapeMachine.Text.Bytes

namespace TapeMachine.Log.SpanName

/-- The number of digits of a name. -/
def width : Nat := 26

/-- The digit of `n < 32`: the letters, and the digits from 2 on. -/
def digit (n : Nat) : UInt8 :=
  if n < 26 then 65 + n.toUInt8 else 24 + n.toUInt8

/-- The name of span `n`: names of one seed differ for as long as the digits last. -/
def ofSeed (seed n : Nat) : Bytes :=
  (List.range width).reverse.map fun i => digit ((seed + n) / Nat.pow 32 i % 32)

end TapeMachine.Log.SpanName
