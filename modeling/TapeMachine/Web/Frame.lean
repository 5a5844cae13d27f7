/-
Frames: the messages of a stream, one for each step and one for its end.

* `Frame.ofStep`, `Frame.ofHalt` and `Frame.busy` are the three kinds;
* `Frame.json` is the text that is sent.
-/
import TapeMachine.Display.Tape
import TapeMachine.Machine.Run
import TapeMachine.Text.JsonString

namespace TapeMachine.Web

/-- How a stream ends: its run halted, or there was no place for it. -/
inductive Ending where
  | halted (reason : HaltReason) (stop : Option Stop)
  | busy
deriving DecidableEq, Repr

/-- The name of an ending. -/
def Ending.name : Ending → String
  | halted reason _ => reason.name
  | busy => "busy"

/-- A message of a stream. -/
structure Frame where
  step : Nat := 0
  /-- The command of a step and its position. -/
  action : Option (Command × Nat) := none
  /-- The cells that are shown; a stream that never began has no tape. -/
  tape : Option Bytes := none
  pointer : Nat := 0
  pc : Nat := 0
  output : Bytes := []
  ending : Option Ending := none
deriving DecidableEq, Repr

namespace Frame

/-- The values of the first `cells` cells; zero, a negative number and a number past the end all mean the
whole tape. -/
def tapeWindow (t : Tape) (cells : Int) : Bytes :=
  let cells : Int := if cells ≤ 0 ∨ t.length < cells then t.length else cells
  (t.first cells.toNat).toList

/-- The frame of step `n`, with the first `cells` cells. -/
def ofStep (n : Nat) (r : StepRecord) (cells : Int) : Frame where
  step := n
  action := some (r.command, r.position)
  tape := some (tapeWindow r.after.tape cells)
  pointer := r.after.pointer
  pc := r.after.pc
  output := r.after.output

/-- The frame of a run that halted, with all cells of its snapshot. -/
def ofHalt (s : Snapshot) (summary : Summary) : Frame where
  step := s.steps
  tape := some (tapeWindow s.state.tape 0)
  pointer := s.state.pointer
  pc := s.state.pc
  output := s.state.output
  ending := some (.halted summary.halt summary.stop)

/-- The only frame of a stream that found no place. -/
def busy : Frame where
  ending := some .busy

/-- The cells of a frame. -/
def tapeJson : Option Bytes → String
  | none => "null"
  | some cells => "[" ++ ",".intercalate (cells.map fun b => decimal b.toNat) ++ "]"

/-- The fields of a frame, in order. A frame without a step has no command and the position -1. -/
def fields (f : Frame) : List (String × String) :=
  let stop : Option Stop := match f.ending with
    | some (.halted _ stop) => stop
    | _ => none
  [("step", decimal f.step)] ++
    (f.action.map fun (c, _) => ("command", JsonString.quote c.symbol)).toList ++
    [("position", match f.action with
        | some (_, position) => decimal position
        | none => "-1"),
      ("tape", tapeJson f.tape),
      ("pointer", decimal f.pointer),
      ("pc", decimal f.pc),
      ("output", JsonString.quote (Display.output f.output))] ++
    (f.ending.map fun e => ("halt", JsonString.quote e.name)).toList ++
    (stop.map fun s => ("fault", JsonString.quote s.message)).toList

/-- The text of a frame. -/
def json (f : Frame) : String :=
  "\x7b" ++ ",".intercalate (f.fields.map fun (name, value) => JsonString.quote name ++ ":" ++ value) ++
    "\x7d"

end Frame

end TapeMachine.Web
