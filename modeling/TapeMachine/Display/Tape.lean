/-
Tapes, outputs and steps as lines of text.

Every cell takes four columns, three for its value and one between cells.

* `Display.tapeLine`, `Display.charLine`, `Display.caretLine` stand one above the other;
* `Display.output` escapes what a terminal would not print;
* `Display.stepLine` and `Display.stepCaret` report one step.
-/
import TapeMachine.Machine.Basic

namespace TapeMachine.Display

/-- The columns from one cell to the next. -/
def cellWidth : Nat := 4

/-- Joins texts with one space between them. -/
def spaced (parts : List String) : String :=
  " ".intercalate parts

/-- The cells on a line of `cells` cells; a number past the end, zero and a negative number all mean the
whole tape. -/
def lineCells (t : Tape) (cells : Int) : Bytes :=
  let cells : Int := if t.length < cells ∨ cells ≤ 0 then t.length else cells
  (t.first cells.toNat).toList

/-- The values of the first `cells` cells, three columns each. -/
def tapeLine (t : Tape) (cells : Int) : String :=
  spaced ((lineCells t cells).map fun b => padLeft 3 (decimal b.toNat))

/-- The character shown for a cell: printable ASCII as itself, and a dot for all else. -/
def cellChar (b : UInt8) : Char :=
  if 32 ≤ b ∧ b ≤ 126 then Char.ofNat b.toNat else '·'

/-- The characters of the first `cells` cells, below the last digits of a `tapeLine`. -/
def charLine (t : Tape) (cells : Int) : String :=
  spaced ((lineCells t cells).map fun b => "  " ++ String.singleton (cellChar b))

/-- A caret behind `columns` spaces. -/
def caretAt (columns : Nat) : String :=
  spaces columns ++ "^"

/-- A caret below the last digit of the cell at `pointer`. -/
def caretLine (pointer : Nat) : String :=
  caretAt (pointer * cellWidth + 2)

/-- The caret line for a pointer held in a 64-bit word, whose column wraps around; there is none for
a negative column. -/
def caretLine? (pointer : Int64) : Option String :=
  let column := pointer * 4 + 2
  if column < 0 then none else some (caretAt column.toNatClampNeg)

/-- The message for a negative column. -/
def negativeColumnMessage : String :=
  "strings: negative Repeat count"

/-- One output byte as text: printable ASCII, line feed and tab as themselves, all else as a
hexadecimal escape. -/
def outputByte (b : UInt8) : List Char :=
  if b = 10 ∨ b = 9 ∨ (32 ≤ b ∧ b ≤ 126) then [Char.ofNat b.toNat]
  else ['\\', 'x', hexDigit (b.toNat / 16), hexDigit (b.toNat % 16)]

/-- Output bytes as text. -/
def output (out : Bytes) : String :=
  String.ofList (out.flatMap outputByte)

/-- What a step line holds before the tape. -/
def stepHead (n : Int) (r : StepRecord) : String :=
  "step " ++ padLeft 4 (decimalInt n) ++ ": [" ++ r.command.symbol ++ "] | tape: "

/-- The line that reports step `n`. -/
def stepLine (n : Int) (r : StepRecord) (cells : Int) : String :=
  stepHead n r ++ tapeLine r.after.tape cells

/-- The caret below the pointer's cell in the line of step `n`, if that cell is among the first
`cells` ones. -/
def stepCaret? (n : Int) (r : StepRecord) (cells : Int) : Option String :=
  if cells ≤ r.after.pointer then none
  else some (spaces (stepHead n r).length ++ caretLine r.after.pointer)

end TapeMachine.Display
