/-
The viewer: a machine that is stepped by hand or plays by itself.

* `Model.new` shows a machine;
* `Model.update` answers a message, and may ask for a tick after the delay or for the end;
* `Model.slower` and `Model.faster` change the delay within its limits.

A tick belongs to one stretch of play: one that is left over from an earlier stretch does nothing.
-/
import TapeMachine.Machine.Run
import TapeMachine.Text.Escapes
import TapeMachine.Viewer.Key
import TapeMachine.Viewer.Prompt

namespace TapeMachine.Viewer

/-- The shortest delay that the faster key leads to, in nanoseconds. -/
def minDelay : Int64 := 10000000

/-- The longest delay that the slower key leads to, in nanoseconds. -/
def maxDelay : Int64 := 5000000000

/-- What the viewer shows and how it got there. -/
structure Model where
  machine : Machine
  /-- The number of cells to show. -/
  cells : Int
  /-- The delay between steps while playing, in nanoseconds. -/
  delay : Int64
  playing : Bool := false
  /-- The number of stretches of play so far. -/
  generation : Nat := 0
  /-- The latest step. -/
  last : Option StepRecord := none
  prompt : Prompt := {}
  /-- Whether keys go to the prompt. -/
  inputting : Bool := false
  /-- The rest of a typed text that begins with a wrong escape. -/
  inputError : Option Bytes := none
  showAll : Bool := false
  /-- The width of the window, if it is positive. -/
  width : Int := 0

/-- What happens to the viewer. -/
inductive Message where
  | key (press : KeyPress)
  | width (width : Int)
  | tick (generation : Nat)

/-- What the viewer asks for. -/
inductive Effect where
  | quit
  /-- A tick for a stretch of play. -/
  | tick (generation : Nat)
  /-- The end, because a word is to be deleted where there is none. -/
  | crash
deriving DecidableEq, Repr

namespace Model

/-- Shows a machine, with a delay that is long enough. -/
def new (machine : Machine) (cells : Int) (delay : Int64) : Model where
  machine
  cells
  delay := max delay minDelay

/-- Takes a step; one that cannot be taken ends the play. -/
def step (m : Model) : Model :=
  match m.machine.step with
  | (.stepped record, machine) => { m with machine, last := some record }
  | (_, machine) => { m with machine, playing := false }

/-- Halves the delay. -/
def faster (m : Model) : Model :=
  { m with delay := max (m.delay / 2) minDelay }

/-- Doubles the delay; the word wraps around. -/
def slower (m : Model) : Model :=
  { m with delay := min (m.delay * 2) maxDelay }

/-- Leaves the prompt. -/
def closeInput (m : Model) : Model :=
  { m with inputting := false, inputError := none, prompt := {} }

/-- Begins a stretch of play, or ends one; a machine that is done does not play. -/
def togglePlay (m : Model) : Model × Option Effect :=
  if m.playing || m.machine.done then ({ m with playing := false }, none)
  else
    let generation := m.generation + 1
    ({ m with playing := true, generation }, some (.tick generation))

/-- Does what a key is bound to. -/
def act (m : Model) : Action → Model × Option Effect
  | .quit => (m, some .quit)
  | .step => ({ m with playing := false }.step, none)
  | .play => m.togglePlay
  | .faster => (m.faster, none)
  | .slower => (m.slower, none)
  | .input => ({ m with inputting := true, inputError := none }, none)
  | .help => ({ m with showAll := !m.showAll }, none)

/-- Feeds the typed text to the machine, unless it has a wrong escape. -/
def submit (m : Model) : Model :=
  match Escapes.decode (utf8 (String.ofList m.prompt.value)) with
  | .error rest => { m with inputError := some rest }
  | .ok bytes => { m with machine := m.machine.feed bytes }.closeInput

/-- Answers a key while the prompt is open. -/
def updateInput (m : Model) (k : KeyPress) : Model × Option Effect :=
  match k.key with
  | .enter => (m.submit, none)
  | .escape => (m.closeInput, none)
  | .interrupt => (m, some .quit)
  | _ =>
    match m.prompt.edit? k with
    | some prompt => ({ m with prompt }, none)
    | none => (m, some .crash)

/-- Answers a tick: a step and another tick, until the machine is done. -/
def updateTick (m : Model) (generation : Nat) : Model × Option Effect :=
  if generation ≠ m.generation || !m.playing then (m, none)
  else
    let m := m.step
    if m.machine.done then ({ m with playing := false }, none)
    else (m, some (.tick m.generation))

/-- Answers a message. -/
def update (m : Model) : Message → Model × Option Effect
  | .width width => ({ m with width }, none)
  | .tick generation => m.updateTick generation
  | .key k =>
    if m.inputting then m.updateInput k
    else match k.action? with
      | some action => m.act action
      | none => (m, none)

end Model

end TapeMachine.Viewer
