/-
Step records form a chain.

The states before and after a step are copied at two moments, and input may be fed in between two steps.
The records of steps that follow each other join up all the same, and each of them tells the whole effect
of its step.

* `Joined`: each step begins in the state in which the one before it ended;
* `StepRecord.Faithful`: a record names the command at its position, and no more is different after it
  than that command may change;
* `joined_of_path`, `faithful_of_path`: the records on every path of a machine are so.
-/
import TapeMachine.Proofs.Machine.Call

namespace TapeMachine

/-- The commands that store a value under the pointer. -/
def Command.Stores (c : Command) : Prop :=
  c = .increment ∨ c = .decrement ∨ c = .read

/-- A record of the command at its position in the program `p`, with what the command may change: a
write adds the cell under the pointer to the output, a store changes that cell, a move to the right may
add a zero cell at the end of the tape, and nothing else changes output or tape. -/
structure StepRecord.Faithful (p : Program) (r : StepRecord) : Prop where
  position : r.position = r.before.pc
  command : p.at? r.position = some r.command
  output : r.after.output
    = r.before.output ++ if r.command = .write then [r.before.cell] else []
  stored : r.command.Stores →
    ∃ b, r.after.tape.toList = r.before.tape.toList.set r.before.pointer b
  grown : r.command = .moveRight → r.after.tape = r.before.tape ∨
    r.after.tape.toList = r.before.tape.toList ++ [0]
  kept : ¬ r.command.Stores → r.command ≠ .moveRight → r.after.tape = r.before.tape

/-- Steps that join up: the first begins in the first state, each other one in the state in which the one
before it ended, and the last ends in the last state. -/
def Joined (first : State) : List StepRecord → State → Prop
  | [], last => first = last
  | r :: rs, last => first = r.before ∧ Joined r.after rs last

theorem Joined.snoc {first : State} {rs : List StepRecord} {r : StepRecord}
    (h : Joined first rs r.before) : Joined first (rs ++ [r]) r.after := by
  induction rs generalizing first with
  | nil => exact ⟨h, rfl⟩
  | cons q rs ih => exact ⟨h.1, ih h.2⟩

theorem Joined.after_eq {first last : State} {rs : List StepRecord} {r : StepRecord}
    (h : Joined first (rs ++ [r]) last) : r.after = last := by
  induction rs generalizing first with
  | nil => exact h.2
  | cons q rs ih => exact ih h.2

/-! ### The effect of a command -/

theorem State.toList_store (s : State) (b : UInt8) :
    (s.store b).tape.toList = s.tape.toList.set s.pointer b :=
  Tape.toList_set s.tape s.pointer b

theorem State.output_right (s : State) : s.right.output = s.output := by
  unfold State.right
  dsimp only
  split <;> rfl

theorem State.tape_right (s : State) :
    s.right.tape = s.tape ∨ s.right.tape.toList = s.tape.toList ++ [0] := by
  unfold State.right
  dsimp only
  split
  · exact .inl rfl
  · exact .inr (Tape.toList_grow s.tape)

namespace Machine

variable {m m' : Machine} {p : Program}

theorem output_advance (m : Machine) (c : Command) : (m.advance c).state.output
    = m.state.output ++ if c = .write then [m.state.cell] else [] := by
  cases c with
  | write => exact List.reverse_cons
  | moveRight => exact (State.output_right m.state).trans (List.append_nil _).symm
  | read =>
    simp only [advance, perform]
    rcases m.input with _ | ⟨b, rest⟩ <;> exact (List.append_nil _).symm
  | moveLeft | increment | decrement | loopStart | loopEnd => exact (List.append_nil _).symm

theorem tape_advance_of_stores (m : Machine) {c : Command} (h : c.Stores) :
    ∃ b, (m.advance c).state.tape.toList = m.state.tape.toList.set m.state.pointer b := by
  rcases h with rfl | rfl | rfl
  · exact ⟨_, State.toList_store m.state _⟩
  · exact ⟨_, State.toList_store m.state _⟩
  · simp only [advance, perform]
    rcases m.input with _ | ⟨b, rest⟩
    · exact ⟨0, State.toList_store m.state 0⟩
    · exact ⟨b, State.toList_store m.state b⟩

theorem tape_advance_of_not_stores (m : Machine) {c : Command} (h : ¬ c.Stores)
    (hright : c ≠ .moveRight) : (m.advance c).state.tape = m.state.tape := by
  cases c with
  | moveRight => exact absurd rfl hright
  | increment | decrement | read => simp [Command.Stores] at h
  | moveLeft | write | loopStart | loopEnd => rfl

/-- **A record of a step is faithful.** -/
theorem faithful_of_step {r : StepRecord} (h : m.step = (.stepped r, m')) (hp : m.program = p) :
    r.Faithful p := by
  obtain ⟨-, hc, -, hm', hr⟩ := of_step_eq_stepped h
  rw [hp] at hc
  -- the states of the record are those of the machine before and after the command
  generalize r.command = c at hc hm' hr
  subst hr hm'
  exact {
    position := rfl
    command := hc
    output := m.output_advance c
    stored := m.tape_advance_of_stores
    grown := fun hright => by
      subst hright
      exact m.state.tape_right
    kept := m.tape_advance_of_not_stores }

end Machine

/-! ### Records on a path -/

variable {m m' : Machine} {es : List Event}

/-- **The records of steps that follow each other join up**, whatever is fed in between. -/
theorem joined_of_path (h : Path m es m') : Joined m.state (records es) m'.state := by
  -- a path grows at its end; feeding and faults leave the state that the last step ended in
  induction h with
  | refl => exact rfl
  | @stepped m₁ m₂ es r _ hstep ih =>
    obtain ⟨-, -, -, -, hr⟩ := Machine.of_step_eq_stepped hstep
    have hbefore : m₁.state = r.before := by rw [hr]
    have hafter : m₂.state = r.after := by rw [hr]
    rw [records_append, records_stepped, hafter]
    rw [hbefore] at ih
    exact ih.snoc
  | faulted _ hstep ih =>
    rw [Machine.of_step_eq_faulted hstep]
    exact ih
  | fed _ bytes ih =>
    rw [records_append, records_fed, List.append_nil]
    exact ih

theorem faithful_of_path (h : Path m es m') : ∀ r ∈ records es, r.Faithful m.program := by
  intro r hr
  -- no step and no feeding exchanges the program
  obtain ⟨before, after, hbefore, hstep⟩ := h.exists_of_mem_records
    (P := fun a => a.program = m.program) (fun a ha => a.program_attempt.trans ha)
    (fun _ _ ha => ha) rfl r hr
  exact Machine.faithful_of_step hstep hbefore

/-- A copy of the whole tape shows the state. -/
theorem Machine.state_snapshot (m : Machine) : (m.snapshot 0).state = m.state := by
  simp only [snapshot, Int.lt_irrefl, false_and, if_false]

end TapeMachine
