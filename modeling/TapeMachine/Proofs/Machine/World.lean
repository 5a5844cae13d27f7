/-
The machine on an endless tape.

A machine whose pointer is on its tape cannot tell the end of the tape: a move past the end finds the
zero that was read there before.

* `World`: what the commands work on, with a tape that has all cells from the start;
* `World.perform`: the effect of a command, if the pointer stays on the tape;
* `perform_world`: on an endless tape the machine does the same.
-/
import TapeMachine.Proofs.Machine.Step

namespace TapeMachine

/-- An endless tape with a pointer, the output bytes in the order in which they were written, and the
input bytes not consumed yet. -/
@[ext]
structure World where
  pointer : Nat
  cells : Nat → UInt8
  output : Bytes
  input : Bytes

namespace World

/-- All cells are zero at the start. -/
def start (input : Bytes) : World where
  pointer := 0
  cells := fun _ => 0
  output := []
  input

/-- The value under the pointer. -/
def cell (w : World) : UInt8 :=
  w.cells w.pointer

/-- Stores a value under the pointer. -/
def store (w : World) (b : UInt8) : World :=
  { w with cells := fun i => if i = w.pointer then b else w.cells i }

/-- The effect of a command, if it does not move the pointer below cell 0. -/
def perform (w : World) : Command → Option World
  | .moveRight => some { w with pointer := w.pointer + 1 }
  | .moveLeft => if w.pointer = 0 then none else some { w with pointer := w.pointer - 1 }
  | .increment => some (w.store (w.cell + 1))
  | .decrement => some (w.store (w.cell - 1))
  | .write => some { w with output := w.output ++ [w.cell] }
  | .read =>
    match w.input with
    | [] => some (w.store 0)
    | b :: rest => some { w.store b with input := rest }
  | .loopStart | .loopEnd => some w

end World

namespace Machine

/-- The machine's surroundings, with zeros past the end of its tape. -/
def world (m : Machine) : World where
  pointer := m.state.pointer
  cells := m.state.tape.cell
  output := m.output
  input := m.input

theorem world_start (p : Program) (length : Nat) (input : Bytes) :
    (start p length input).world = .start input := by
  refine World.ext rfl ?_ rfl rfl
  funext i
  exact Tape.cell_blank length i

/-! ### The effect of a command -/

theorem cell_right (s : State) (i : Nat) : s.right.tape.cell i = s.tape.cell i := by
  unfold State.right
  dsimp only
  split
  · rfl
  · exact Tape.cell_grow s.tape i

theorem world_moveRight (m : Machine) :
    (m.advance .moveRight).world = { m.world with pointer := m.world.pointer + 1 } := by
  have hpointer : m.state.right.pointer = m.state.pointer + 1 := by
    unfold State.right
    dsimp only
    split <;> rfl
  have houtput : m.state.right.output = m.state.output := by
    unfold State.right
    dsimp only
    split <;> rfl
  refine World.ext hpointer ?_ houtput rfl
  funext i
  exact cell_right m.state i

/-- Storing a value under the pointer stores it on the endless tape. -/
theorem cell_store {s : State} (h : s.pointer < s.tape.length) (b : UInt8) :
    (s.store b).tape.cell = fun i => if i = s.pointer then b else s.tape.cell i := by
  funext i
  exact Tape.cell_set h b i

/-- **On an endless tape the machine does the same.** -/
theorem perform_world {m : Machine} (h : m.OnTape) {c : Command}
    (hu : underflows c m.state = false) : m.world.perform c = some (m.advance c).world := by
  cases c with
  | moveRight => rw [world_moveRight, World.perform]
  | moveLeft =>
    have hne : m.state.pointer ≠ 0 := by simpa [underflows] using hu
    rw [World.perform, if_neg (show m.world.pointer ≠ 0 from hne)]
    rfl
  | increment =>
    rw [World.perform, Option.some_inj]
    exact World.ext rfl (cell_store h _).symm rfl rfl
  | decrement =>
    rw [World.perform, Option.some_inj]
    exact World.ext rfl (cell_store h _).symm rfl rfl
  | write =>
    rw [World.perform, Option.some_inj]
    refine World.ext rfl rfl ?_ rfl
    exact List.reverse_cons.symm
  | read =>
    have hinput : m.world.input = m.input := rfl
    -- whether the queue has a byte or not, something is stored under the pointer
    rcases hi : m.input with _ | ⟨b, rest⟩
    · rw [World.perform, hinput, hi]
      refine congrArg some (World.ext ?_ ?_ ?_ ?_) <;>
        simp only [world, advance, perform, hi, World.store, Machine.output]
      · rfl
      · exact (cell_store h _).symm
      · rfl
    · rw [World.perform, hinput, hi]
      refine congrArg some (World.ext ?_ ?_ ?_ ?_) <;>
        simp only [world, advance, perform, hi, World.store, Machine.output]
      · rfl
      · exact (cell_store h _).symm
      · rfl
  | loopStart | loopEnd => rfl

/-- On an endless tape the machine faults in the same place. -/
theorem perform_world_of_underflow {m : Machine} {c : Command}
    (hu : underflows c m.state = true) : m.world.perform c = none := by
  have hboth : c = .moveLeft ∧ m.state.pointer = 0 := by simpa [underflows] using hu
  rw [hboth.1, World.perform, if_pos (show m.world.pointer = 0 from hboth.2)]

end Machine

end TapeMachine
