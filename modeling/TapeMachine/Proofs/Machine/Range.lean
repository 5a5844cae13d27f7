/-
No call on a machine looks outside its tape or its program.

The pointer stays on the tape because the tape grows under it one cell at a time and a move below
cell 0 faults; the program counter stays in the program because brackets have their partners there.

* `Machine.InRange`: the invariant, and `StepRecord.InRange` what it says about an executed step;
* `Machine.InRange.attempt`: attempts to take a step keep it;
* `calls_stay_in_range`: it holds after every sequence of calls, and so for every step in it.
-/
import TapeMachine.Proofs.Machine.Call
import TapeMachine.Proofs.Program.Load

namespace TapeMachine

/-- The pointer is on the tape, which is at least `length` cells long, and the program counter is in
the program `p` or right behind it. -/
structure Machine.InRange (p : Program) (length : Nat) (m : Machine) : Prop where
  program : m.program = p
  pointer_lt : m.state.pointer < m.state.tape.length
  length_le : length ≤ m.state.tape.length
  pc_le : m.state.pc ≤ p.length

/-- An executed step finds its command in the program `p`, with a partner if it is a bracket, and the
cell under the pointer on the tape, before and after; and a move to the left does move the pointer. -/
structure StepRecord.InRange (p : Program) (length : Nat) (r : StepRecord) : Prop where
  position : r.position = r.before.pc
  command : p.at? r.position = some r.command
  partner : r.command = .loopStart ∨ r.command = .loopEnd → ∃ j, p.partner? r.position = some j
  moveLeft : r.command = .moveLeft → r.before.pointer = r.after.pointer + 1
  before_pointer_lt : r.before.pointer < r.before.tape.length
  after_pointer_lt : r.after.pointer < r.after.tape.length
  length_le : length ≤ r.before.tape.length ∧ r.before.tape.length ≤ r.after.tape.length
  after_pc_le : r.after.pc ≤ p.length

/-! ### Jumps of loaded programs -/

namespace Program

variable {src : Bytes} {p : Program}

/-- A bracket of a loaded program has a partner in the program. -/
theorem exists_partner_of_load (h : load src = .ok p) {pos : Nat}
    (hc : p.at? pos = some .loopStart ∨ p.at? pos = some .loopEnd) :
    ∃ j < p.length, p.partner? pos = some j := by
  obtain ⟨j, hj⟩ := Option.isSome_iff_exists.mp (((resolved_of_load h).partner_isSome pos).mpr hc)
  refine ⟨j, ?_, hj⟩
  have hmatched := (partner?_eq_some_iff h).mp hj
  rw [length_of_load h]
  exact Brackets.Matched.lt_length (Or.symm hmatched)

theorem lt_length_of_at? {pos : Nat} {c : Command} (hc : p.at? pos = some c) : pos < p.length :=
  (Array.getElem?_eq_some_iff.mp hc).choose

theorem isSome_at?_iff {pos : Nat} : (p.at? pos).isSome ↔ pos < p.length := by
  simp [at?, length]

end Program

namespace Machine

variable {src : Bytes} {p : Program} {length : Nat}

/-- After a command of a loaded program the program counter is in the program or right behind it. -/
theorem nextPc_le_length (h : Program.load src = .ok p) {pos : Nat} {c : Command}
    (hc : p.at? pos = some c) (cell : UInt8) : nextPc p c pos cell ≤ p.length := by
  have hpos := Program.lt_length_of_at? hc
  cases c with
  | loopStart =>
    obtain ⟨j, hlt, hj⟩ := Program.exists_partner_of_load h (.inl hc)
    rw [nextPc, hj, Option.getD_some]
    split <;> omega
  | loopEnd =>
    obtain ⟨j, hlt, hj⟩ := Program.exists_partner_of_load h (.inr hc)
    rw [nextPc, hj, Option.getD_some]
    split <;> omega
  | moveRight | moveLeft | increment | decrement | write | read => exact hpos

/-! ### The invariant -/

theorem inRange_start (p : Program) {length : Nat} (h : 1 ≤ length) (input : Bytes) :
    InRange p length (start p length input) where
  program := rfl
  pointer_lt := onTape_start p h input
  length_le := Nat.le_of_eq (Tape.length_blank length).symm
  pc_le := Nat.zero_le _

theorem inRange_of_new? {p : Program} {length : Int} {input : Bytes} {m : Machine}
    (h : new? p length input = some m) : InRange p length.toNat m := by
  have hpos := pos_of_new? h
  rw [eq_start_of_new? h]
  exact inRange_start p (by omega) input

theorem InRange.advance {m : Machine} (h : Program.load src = .ok p) (hm : InRange p length m)
    {c : Command} (hc : m.program.at? m.state.pc = some c) : InRange p length (m.advance c) where
  program := hm.program
  pointer_lt := OnTape.advance hm.pointer_lt c
  length_le := by
    have hlen := hm.length_le
    rw [length_advance c hm.pointer_lt]
    omega
  pc_le := by
    rw [hm.program] at hc
    rw [pc_advance, hm.program]
    exact nextPc_le_length h hc _

theorem InRange.attempt (h : Program.load src = .ok p) (m : Machine) (hm : InRange p length m) :
    InRange p length m.attempt.2 := by
  refine attempt_preserves hm ?_ ?_
  · intro f
    exact ⟨hm.program, hm.pointer_lt, hm.length_le, hm.pc_le⟩
  · intro c _ hc _
    exact hm.advance h hc

theorem InRange.feed (m : Machine) (bytes : Bytes) (hm : InRange p length m) :
    InRange p length (m.feed bytes) :=
  ⟨hm.program, hm.pointer_lt, hm.length_le, hm.pc_le⟩

/-- A step of a machine that is in range is in range. -/
theorem InRange.record {m m' : Machine} (h : Program.load src = .ok p) (hm : InRange p length m)
    {r : StepRecord} (hstep : m.step = (.stepped r, m')) : r.InRange p length := by
  obtain ⟨-, hc, hu, hm', hr⟩ := of_step_eq_stepped hstep
  have hafter := hm.advance h hc
  have hlength := length_advance r.command hm.pointer_lt
  rw [← hm'] at hafter hlength
  rw [hm.program] at hc
  refine ⟨by rw [hr], by rw [hr]; exact hc, ?_, ?_, by rw [hr]; exact hm.pointer_lt,
    by rw [hr]; exact hafter.pointer_lt, ?_, by rw [hr]; exact hafter.pc_le⟩
  · intro hbracket
    rw [hr]
    obtain ⟨j, -, hj⟩ := Program.exists_partner_of_load h
      (hbracket.imp (fun hstart => hstart ▸ hc) (fun hend => hend ▸ hc))
    exact ⟨j, hj⟩
  · intro hleft
    rw [hr]
    rw [hleft] at hu hm'
    -- the step was executed, so it did not move the pointer below cell 0
    have hne : m.state.pointer ≠ 0 := by simpa [underflows] using hu
    have hpred : m'.state.pointer = m.state.pointer - 1 := by
      rw [hm']
      rfl
    dsimp only
    omega
  · rw [hr]
    dsimp only
    exact ⟨hm.length_le, by omega⟩

end Machine

/-- **No call looks outside the tape or the program**: for a loaded program and a positive tape
length, whatever calls are made, the pointer is on the tape, the tape is at least as long as at the
start, the program counter is in the program or right behind it, and every executed step finds its
command, the partner of its bracket, and the cell under the pointer before and after. -/
theorem calls_stay_in_range {src : Bytes} {p : Program} (hload : Program.load src = .ok p)
    {length : Int} (hlength : 1 ≤ length) (input : Bytes) (calls : List Call) :
    ∃ m₀, Machine.new? p length input = some m₀ ∧
      (performAll calls m₀).2.InRange p length.toNat ∧
      ∀ r ∈ records (eventsOf (performAll calls m₀).1), r.InRange p length.toNat := by
  have hstart := Machine.inRange_start p (show 1 ≤ length.toNat by omega) input
  have hpath := path_performAll calls (.start p length.toNat input)
  refine ⟨.start p length.toNat input, Machine.new?_of_pos hlength p input,
    hpath.preserves (Machine.InRange.attempt hload) Machine.InRange.feed hstart, ?_⟩
  intro r hr
  obtain ⟨before, after, hbefore, hstep⟩ := hpath.exists_of_mem_records
    (Machine.InRange.attempt hload) Machine.InRange.feed hstart r hr
  exact hbefore.record hload hstep

/-- A program that reads a byte and moves it one cell to the right, started on a single cell. -/
theorem calls_on_one_cell_stay_in_range :
    ∃ p m₀, Program.load [44, 91, 62, 43, 60, 45, 93] = .ok p ∧ Machine.new? p 1 [2] = some m₀ ∧
      (performAll [.step, .steps 4, .feed [7], .run 100 .never] m₀).2.InRange p 1 ∧
      ∀ r ∈ records (eventsOf (performAll [.step, .steps 4, .feed [7], .run 100 .never] m₀).1),
        r.InRange p 1 := by
  have hload : Program.load [44, 91, 62, 43, 60, 45, 93] = .ok
      ⟨#[.read, .loopStart, .moveRight, .increment, .moveLeft, .decrement, .loopEnd],
        #[0, 1, 2, 3, 4, 5, 6], #[none, some 6, none, none, none, none, some 1]⟩ := rfl
  obtain ⟨m₀, hm₀, hrange⟩ := calls_stay_in_range hload (show (1 : Int) ≤ 1 by decide) [2]
    [.step, .steps 4, .feed [7], .run 100 .never]
  exact ⟨_, m₀, hload, hm₀, hrange⟩

end TapeMachine
