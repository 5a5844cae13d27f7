/-
Lines that are typed in.

Keys that move or delete work on the line at hand. A key that can do nothing rings the bell, and so does
the tabulator, which completes nothing here. Input that ends within a line finishes it.

* `LineInput.ofBytes` gives the lines of an input, each with how often the bell rang before its end.
-/
import TapeMachine.Text.Utf8

namespace TapeMachine.Script

/-- A line that was typed in. -/
structure TypedLine where
  text : List Char
  /-- How often the bell rang. -/
  bells : Nat := 0
deriving DecidableEq, Repr

namespace LineInput

/-- A line with a cursor. -/
structure Editor where
  /-- What stands before the cursor, last character first. -/
  before : List Char := []
  /-- What stands behind the cursor. -/
  behind : List Char := []
  bells : Nat := 0
deriving DecidableEq, Repr

namespace Editor

/-- Whether nothing was typed. -/
def isEmpty (e : Editor) : Bool :=
  e.before.isEmpty && e.behind.isEmpty

/-- The line. -/
def line (e : Editor) : TypedLine :=
  ⟨e.before.reverse ++ e.behind, e.bells⟩

/-- Rings the bell. -/
def ring (e : Editor) : Editor :=
  { e with bells := e.bells + 1 }

/-- What a key does that does not end the line. -/
def press (e : Editor) (c : Char) : Editor :=
  match c.toNat with
  | 1 => { e with before := [], behind := e.before.reverse ++ e.behind }
  | 2 =>
    match e.before with
    | c :: before => { e with before, behind := c :: e.behind }
    | [] => e
  | 4 => if e.behind.isEmpty then e.ring else { e with behind := e.behind.drop 1 }
  | 5 => { e with before := e.behind.reverse ++ e.before, behind := [] }
  | 6 =>
    match e.behind with
    | c :: behind => { e with before := c :: e.before, behind }
    | [] => e
  | 7 => e
  | 8 | 127 => if e.isEmpty then e.ring else { e with before := e.before.drop 1 }
  | 9 => e.ring
  | 11 => { e with behind := [] }
  | 21 => { e with before := [] }
  | _ => { e with before := c :: e.before }

end Editor

/-- Whether a key ends the line at hand. -/
def endsLine (e : Editor) (c : Char) : Bool :=
  c = '\n' || c = '\r' || c.toNat = 0 && !e.isEmpty

/-- Whether a key ends the input, which it does only where nothing was typed. -/
def endsInput (e : Editor) (c : Char) : Bool :=
  (c.toNat = 0 || c.toNat = 4) && e.isEmpty

/-- The lines from some characters on, and how often the bell rang behind the last. -/
def linesFrom (e : Editor) : List Char → List TypedLine × Nat
  | [] => if e.isEmpty then ([], e.bells) else ([e.line], 0)
  | c :: rest =>
    if endsInput e c then ([], e.bells)
    else if endsLine e c then
      let (lines, bells) := linesFrom {} rest
      (e.line :: lines, bells)
    else linesFrom (e.press c) rest

/-- The lines of an input, and how often the bell rang behind the last. -/
def ofBytes (input : Bytes) : List TypedLine × Nat :=
  linesFrom {} (Utf8.replaceInvalid input)

end LineInput

end TapeMachine.Script
