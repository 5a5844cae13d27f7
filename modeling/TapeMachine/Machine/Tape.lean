/-
Tapes: a row of byte cells that grows to the right.

The cells past the end read as zero, so that a tape stands for an infinite one.

* `Tape.cell` reads, `Tape.set` writes, `Tape.grow` appends a zero cell;
* `Tape.first` is the front part of a tape, which displays show.
-/
import TapeMachine.Text.Bytes

namespace TapeMachine

/-- A finite row of cells. -/
structure Tape where
  cells : ByteArray

namespace Tape

instance : DecidableEq Tape := fun s t =>
  match ByteArray.instDecidableEq s.cells t.cells with
  | isTrue h => isTrue (congrArg mk h)
  | isFalse h => isFalse fun e => h (congrArg cells e)

instance : Inhabited Tape := ⟨⟨.empty⟩⟩

/-- A tape of `n` zero cells. -/
def blank (n : Nat) : Tape :=
  ⟨⟨Array.replicate n 0⟩⟩

/-- A tape with the given cell values. -/
def ofList (values : Bytes) : Tape :=
  ⟨⟨values.toArray⟩⟩

/-- The number of cells. -/
def length (t : Tape) : Nat :=
  t.cells.size

/-- The cell values in order. -/
def toList (t : Tape) : Bytes :=
  t.cells.data.toList

/-- The value of cell `i`; cells past the end are zero. -/
def cell (t : Tape) (i : Nat) : UInt8 :=
  if h : i < t.cells.size then t.cells[i] else 0

/-- Writes cell `i`, if the tape has it. -/
def set (t : Tape) (i : Nat) (b : UInt8) : Tape :=
  if h : i < t.cells.size then ⟨t.cells.set i b h⟩ else t

/-- Appends one zero cell. -/
def grow (t : Tape) : Tape :=
  ⟨t.cells.push 0⟩

/-- The first `n` cells. -/
def first (t : Tape) (n : Nat) : Tape :=
  ⟨t.cells.extract 0 n⟩

end Tape

end TapeMachine
