/-
What a machine lends to scripts.

Its values are lent as records of their fields, in the order in which they were declared.

* `HostValue.ofSnapshot` shows a copy of a machine as a record;
* `Script.globals` shows a machine's state under names.
-/
import TapeMachine.Machine.Run
import TapeMachine.Script.HostValue

namespace TapeMachine.Script

namespace HostValue

/-- A fault at a position. -/
def faultAt (position : Int) : HostValue :=
  .record [("Position", .whole position)]

/-- A bracket without a partner, at a position in the program and an offset in its source. -/
def unmatchedAt (position offset : Int) : HostValue :=
  .record [("Position", .whole position), ("Offset", .whole offset)]

/-- A fault. -/
def ofFault (f : Fault) : HostValue :=
  faultAt f.position

/-- A state of a machine. -/
def ofState (s : State) : HostValue :=
  .record [("Tape", .bytes s.tape.toList), ("Pointer", .whole s.pointer), ("ProgramCounter", .whole s.pc),
    ("Output", .bytes s.output)]

/-- A value that may be missing. -/
def ofOption {α : Type} (f : α → HostValue) : Option α → HostValue
  | none => .nothing
  | some a => .reference (f a)

/-- The summary of a run by its parts. -/
def summary (steps : Int) (output : Bytes) (halt : HaltReason) (fault : HostValue) : HostValue :=
  .record [("StepsExecuted", .whole steps), ("FinalOutput", .bytes output), ("HaltReason", .whole halt.code),
    ("Fault", fault)]

/-- A copy of what a machine shows. -/
def ofSnapshot (s : Snapshot) : HostValue :=
  .record [("State", ofState s.state), ("Steps", .whole s.steps), ("Done", .flag s.done),
    ("Fault", ofOption ofFault s.fault)]

end HostValue

/-- The value of a cell; cells past the tape are zero, like those that were never visited. -/
def cellAt (tape : Tape) (i : Int) : Int :=
  if i < 0 then 0 else (tape.cell i.toNat).toNat

/-- A machine's state under names. -/
def globals (s : Snapshot) (p : Program) : Globals :=
  [("tape", .sequence (s.state.tape.toList.map fun b => .whole b.toNat)),
    ("pointer", .whole s.state.pointer),
    ("pc", .whole s.state.pc),
    ("output", .text s.state.output),
    ("steps", .whole s.steps),
    ("done", .flag s.done),
    ("program", .text p.source),
    ("cell", .function (cellAt s.state.tape)),
    ("fault", (s.fault.map fun f => HostValue.text (utf8 f.message)).getD .nothing)]

end TapeMachine.Script
