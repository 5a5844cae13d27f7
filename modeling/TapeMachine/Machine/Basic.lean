/-
The machine: a loaded program, its tape, and one step of execution.

* `Machine.perform` is the effect of one command;
* `Machine.attempt` executes the command at the program counter;
* `Machine.step` does the same and records the states before and after;
* `Machine.takeSteps` takes several steps in a row.

A fault leaves everything as it was and stays for good.
-/
import TapeMachine.Machine.Tape
import TapeMachine.Program.Basic

namespace TapeMachine

/-- The pointer was on cell 0 when the command at `position` moved it left. -/
structure Fault where
  position : Nat
deriving DecidableEq, Repr

/-- The message of a fault at a position. -/
def Fault.messageAt (position : Int) : String :=
  "pointer moved below cell 0 at position " ++ decimalInt position

/-- The message of a fault. -/
def Fault.message (f : Fault) : String :=
  messageAt f.position

/-- What can be seen of a machine at one point of a run. -/
structure State where
  tape : Tape
  pointer : Nat
  pc : Nat
  /-- The output bytes, newest first. -/
  written : Bytes
deriving DecidableEq, Inhabited

namespace State

/-- The output bytes in the order in which they were written. -/
def output (s : State) : Bytes :=
  s.written.reverse

/-- The value under the pointer. -/
def cell (s : State) : UInt8 :=
  s.tape.cell s.pointer

/-- Stores a value under the pointer. -/
def store (s : State) (b : UInt8) : State :=
  { s with tape := s.tape.set s.pointer b }

/-- Moves the pointer right, onto a new zero cell if the tape ends. -/
def right (s : State) : State :=
  let pointer := s.pointer + 1
  if pointer < s.tape.length then { s with pointer } else { s with pointer, tape := s.tape.grow }

end State

/-- A machine in the middle of a run. -/
structure Machine where
  program : Program
  state : State
  /-- The input bytes not consumed yet. -/
  input : Bytes
  /-- How many steps were executed. -/
  steps : Nat
  fault : Option Fault
deriving DecidableEq

/-- What an attempt to take a step comes to. -/
inductive Attempt where
  | ended
  | faulted (fault : Fault)
  | stepped (command : Command) (position : Nat)
deriving DecidableEq, Repr

/-- One executed step with the states around it. -/
structure StepRecord where
  before : State
  after : State
  command : Command
  position : Nat
deriving DecidableEq

/-- What a recorded attempt to take a step comes to. -/
inductive StepOutcome where
  | ended
  | faulted (fault : Fault)
  | stepped (record : StepRecord)
deriving DecidableEq

namespace Machine

/-- A machine at the start of a program, on a blank tape of `tapeLength` cells. -/
def start (program : Program) (tapeLength : Nat) (input : Bytes) : Machine where
  program
  state := { tape := .blank tapeLength, pointer := 0, pc := 0, written := [] }
  input
  steps := 0
  fault := none

/-- A machine at the start of a program, if the tape length is positive. -/
def new? (program : Program) (tapeLength : Int) (input : Bytes) : Option Machine :=
  if tapeLength ≤ 0 then none else some (start program tapeLength.toNat input)

/-- The message for a tape length that is not positive. -/
def tapeLengthMessage (tapeLength : Int) : String :=
  "tape length must be positive, got " ++ decimalInt tapeLength

/-- Whether the machine cannot take another step. -/
def done (m : Machine) : Bool :=
  m.fault.isSome || m.program.length ≤ m.state.pc

/-- The output bytes so far. -/
def output (m : Machine) : Bytes :=
  m.state.output

/-- The number of input bytes not consumed yet. -/
def pending (m : Machine) : Nat :=
  m.input.length

/-- Appends bytes to the input queue. -/
def feed (m : Machine) (bytes : Bytes) : Machine :=
  { m with input := m.input ++ bytes }

/-- Whether a command would move the pointer below cell 0. -/
def underflows (c : Command) (s : State) : Bool :=
  c = .moveLeft && s.pointer = 0

/-- The effect of a command on the state and the input queue, the program counter apart. An empty
queue reads as zero. -/
def perform (c : Command) (s : State) (input : Bytes) : State × Bytes :=
  match c with
  | .moveRight => (s.right, input)
  | .moveLeft => ({ s with pointer := s.pointer - 1 }, input)
  | .increment => (s.store (s.cell + 1), input)
  | .decrement => (s.store (s.cell - 1), input)
  | .write => ({ s with written := s.cell :: s.written }, input)
  | .read =>
    match input with
    | [] => (s.store 0, [])
    | b :: rest => (s.store b, rest)
  | .loopStart | .loopEnd => (s, input)

/-- The program counter after the command `c` at position `pos`, with `cell` under the pointer: a
bracket jumps behind its partner or falls through, and all else goes on to the next command. -/
def nextPc (p : Program) (c : Command) (pos : Nat) (cell : UInt8) : Nat :=
  match c with
  | .loopStart => if cell = 0 then (p.partner? pos).getD 0 + 1 else pos + 1
  | .loopEnd => if cell = 0 then pos + 1 else (p.partner? pos).getD 0 + 1
  | _ => pos + 1

/-- Executes the command at the program counter. -/
def attempt (m : Machine) : Attempt × Machine :=
  match m.fault with
  | some f => (.faulted f, m)
  | none =>
    match m.program.at? m.state.pc with
    | none => (.ended, m)
    | some c =>
      let position := m.state.pc
      if underflows c m.state then
        (.faulted ⟨position⟩, { m with fault := some ⟨position⟩ })
      else
        let pc := nextPc m.program c position m.state.cell
        let ⟨program, state, input, steps, _⟩ := m
        let (state, input) := perform c state input
        (.stepped c position, ⟨program, { state with pc }, input, steps + 1, none⟩)

/-- Executes the command at the program counter and records the states before and after. A machine
that is done reports its fault, if it has one, on every call. -/
def step (m : Machine) : StepOutcome × Machine :=
  let before := m.state
  match m.attempt with
  | (.ended, m) => (.ended, m)
  | (.faulted f, m) => (.faulted f, m)
  | (.stepped command position, m) =>
    (.stepped { before, after := m.state, command, position }, m)

/-- The records of at most `limit` steps, the fault that ended them if one did, and the machine
after them. -/
def takeSteps : Nat → Machine → List StepRecord × Option Fault × Machine
  | 0, m => ([], none, m)
  | limit + 1, m =>
    match m.step with
    | (.ended, m) => ([], none, m)
    | (.faulted f, m) => ([], some f, m)
    | (.stepped r, m) =>
      let (rs, fault, m) := takeSteps limit m
      (r :: rs, fault, m)

end Machine

end TapeMachine
