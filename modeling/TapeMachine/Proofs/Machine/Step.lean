/-
One step of a machine.

An attempt to take a step reports the fault of a faulted machine, finds the program ended, faults, or
executes one command. `attempt_cases` says so once and for all; every invariant of machines is
derived from it.

* `advance`: the machine after a command was executed;
* `length_advance`: after a step the tape reaches exactly as far as it did, or up to the pointer;
* `after?`: the machine after a number of executed steps, if it can take so many.
-/
import TapeMachine.Machine.Basic
import TapeMachine.Proofs.Machine.Tape

namespace TapeMachine.Machine

/-- The machine after the command at its program counter, `c`, was executed. -/
def advance (m : Machine) (c : Command) : Machine where
  program := m.program
  state := {
    (perform c m.state m.input).1 with pc := nextPc m.program c m.state.pc m.state.cell }
  input := (perform c m.state m.input).2
  steps := m.steps + 1
  fault := none

variable {m m' : Machine} {c : Command}

@[simp] theorem program_advance : (m.advance c).program = m.program := rfl

@[simp] theorem steps_advance : (m.advance c).steps = m.steps + 1 := rfl

@[simp] theorem fault_advance : (m.advance c).fault = none := rfl

@[simp] theorem pc_advance :
    (m.advance c).state.pc = nextPc m.program c m.state.pc m.state.cell := rfl

theorem new?_of_pos {length : Int} (h : 1 ≤ length) (p : Program) (input : Bytes) :
    new? p length input = some (start p length.toNat input) := by
  rw [new?, if_neg (by omega)]

theorem pos_of_new? {p : Program} {length : Int} {input : Bytes}
    (h : new? p length input = some m) : 1 ≤ length := by
  by_cases hlength : length ≤ 0
  · rw [new?, if_pos hlength] at h
    cases h
  · omega

theorem eq_start_of_new? {p : Program} {length : Int} {input : Bytes}
    (h : new? p length input = some m) : m = start p length.toNat input := by
  rw [new?_of_pos (pos_of_new? h)] at h
  exact (Option.some.inj h).symm

/-! ### Attempts -/

theorem attempt_of_fault {f : Fault} (h : m.fault = some f) : m.attempt = (.faulted f, m) := by
  unfold attempt
  rw [h]

theorem attempt_of_end (hf : m.fault = none) (h : m.program.at? m.state.pc = none) :
    m.attempt = (.ended, m) := by
  unfold attempt
  rw [hf]
  simp only [h]

theorem attempt_of_underflow (hf : m.fault = none) (hc : m.program.at? m.state.pc = some c)
    (hu : underflows c m.state = true) :
    m.attempt = (.faulted ⟨m.state.pc⟩, { m with fault := some ⟨m.state.pc⟩ }) := by
  unfold attempt
  rw [hf]
  simp only [hc]
  rw [if_pos hu]

theorem attempt_of_command (hf : m.fault = none) (hc : m.program.at? m.state.pc = some c)
    (hu : underflows c m.state = false) :
    m.attempt = (.stepped c m.state.pc, m.advance c) := by
  unfold attempt
  rw [hf]
  simp only [hc]
  rw [if_neg (by simp [hu])]
  rfl

/-- **All that an attempt to take a step can do.** -/
theorem attempt_cases (m : Machine) :
    (∃ f, m.fault = some f ∧ m.attempt = (.faulted f, m)) ∨
    (m.fault = none ∧ m.program.at? m.state.pc = none ∧ m.attempt = (.ended, m)) ∨
    (m.fault = none ∧ m.program.at? m.state.pc = some .moveLeft ∧ m.state.pointer = 0 ∧
      m.attempt = (.faulted ⟨m.state.pc⟩, { m with fault := some ⟨m.state.pc⟩ })) ∨
    (∃ c, m.fault = none ∧ m.program.at? m.state.pc = some c ∧ underflows c m.state = false ∧
      m.attempt = (.stepped c m.state.pc, m.advance c)) := by
  rcases hf : m.fault with _ | f
  · right
    rcases hc : m.program.at? m.state.pc with _ | c
    · exact .inl ⟨rfl, rfl, attempt_of_end hf hc⟩
    · right
      rcases hu : underflows c m.state with _ | _
      · exact .inr ⟨c, rfl, rfl, hu, attempt_of_command hf hc hu⟩
      · -- the only command that can fault is a move to the left, on cell 0
        have hboth : c = .moveLeft ∧ m.state.pointer = 0 := by simpa [underflows] using hu
        rw [hboth.1] at hc hu ⊢
        exact .inl ⟨rfl, rfl, hboth.2, attempt_of_underflow hf hc hu⟩
  · exact .inl ⟨f, rfl, attempt_of_fault hf⟩

/-- What holds of a machine and its variants without and with a step holds after an attempt. -/
theorem attempt_preserves {P : Machine → Prop} (hm : P m)
    (hfault : ∀ f, P { m with fault := f })
    (hstep : ∀ c, m.fault = none → m.program.at? m.state.pc = some c →
      underflows c m.state = false → P (m.advance c)) : P m.attempt.2 := by
  rcases m.attempt_cases with ⟨f, -, h⟩ | ⟨-, -, h⟩ | ⟨-, -, -, h⟩ | ⟨c, hf, hc, hu, h⟩
  · rwa [h]
  · rwa [h]
  · rw [h]
    exact hfault _
  · rw [h]
    exact hstep c hf hc hu

theorem program_attempt (m : Machine) : m.attempt.2.program = m.program :=
  attempt_preserves (P := fun a => a.program = m.program) rfl (fun _ => rfl) (fun _ _ _ _ => rfl)

/-- An attempt executes one step at most. -/
theorem steps_attempt_le (m : Machine) : m.attempt.2.steps ≤ m.steps + 1 :=
  attempt_preserves (P := fun a => a.steps ≤ m.steps + 1) (Nat.le_succ _) (fun _ => Nat.le_succ _)
    (fun _ _ _ _ => Nat.le_refl _)

/-! ### Recorded steps -/

theorem step_of_ended (h : m.attempt = (.ended, m')) : m.step = (.ended, m') := by
  unfold step
  rw [h]

theorem step_of_faulted {f : Fault} (h : m.attempt = (.faulted f, m')) :
    m.step = (.faulted f, m') := by
  unfold step
  rw [h]

theorem step_of_stepped {pos : Nat} (h : m.attempt = (.stepped c pos, m')) :
    m.step = (.stepped ⟨m.state, m'.state, c, pos⟩, m') := by
  unfold step
  rw [h]

/-- A machine whose program has ended is left as it is. -/
theorem attempt_eq_ended (h : m.attempt = (.ended, m')) : m' = m := by
  rcases m.attempt_cases with ⟨f, -, ha⟩ | ⟨-, -, ha⟩ | ⟨-, -, -, ha⟩ | ⟨c, -, -, -, ha⟩ <;>
    rw [ha] at h <;> cases h
  rfl

/-- An attempt finds the program ended behind its last command only. -/
theorem of_attempt_eq_ended (h : m.attempt = (.ended, m')) :
    m.fault = none ∧ m.program.length ≤ m.state.pc := by
  rcases m.attempt_cases with ⟨f, -, ha⟩ | ⟨hf, hc, -⟩ | ⟨-, -, -, ha⟩ | ⟨c, -, -, -, ha⟩
  · rw [ha] at h
    cases h
  · exact ⟨hf, Array.getElem?_eq_none_iff.mp hc⟩
  · rw [ha] at h
    cases h
  · rw [ha] at h
    cases h

theorem step_eq_ended (h : m.step = (.ended, m')) : m' = m := by
  rcases ha : m.attempt with ⟨_ | f | ⟨c, pos⟩, m₁⟩
  · rw [step_of_ended ha] at h
    cases h
    exact attempt_eq_ended ha
  · rw [step_of_faulted ha] at h
    cases h
  · rw [step_of_stepped ha] at h
    cases h

/-- Recording the states changes nothing else. -/
theorem step_snd (m : Machine) : m.step.2 = m.attempt.2 := by
  rcases h : m.attempt with ⟨_ | f | ⟨c, pos⟩, m'⟩
  · rw [step_of_ended h]
  · rw [step_of_faulted h]
  · rw [step_of_stepped h]

/-- Asked beforehand, a machine that is done says what a recorded step would find. -/
theorem step_of_done (h : m.done = true) : m.step = (m.fault.elim .ended .faulted, m) := by
  rcases hf : m.fault with _ | f
  · have hpc : m.program.length ≤ m.state.pc := by simpa [done, hf] using h
    exact step_of_ended (attempt_of_end hf (Array.getElem?_eq_none hpc))
  · exact step_of_faulted (attempt_of_fault hf)

/-- An attempt finds the program ended only if the machine has said that it is done. -/
theorem attempt_ne_ended (h : m.done = false) : m.attempt.1 ≠ .ended := by
  intro hended
  have hattempt : m.attempt = (.ended, m.attempt.2) := Prod.ext hended rfl
  obtain ⟨-, hpc⟩ := of_attempt_eq_ended hattempt
  simp [done, hpc] at h

/-- A recorded step executes the command at the program counter. -/
theorem of_step_eq_stepped {r : StepRecord} (h : m.step = (.stepped r, m')) :
    m.fault = none ∧ m.program.at? m.state.pc = some r.command ∧
      underflows r.command m.state = false ∧ m' = m.advance r.command ∧
      r = ⟨m.state, m'.state, r.command, m.state.pc⟩ := by
  rcases m.attempt_cases with ⟨f, -, ha⟩ | ⟨-, -, ha⟩ | ⟨-, -, -, ha⟩ | ⟨c, hf, hc, hu, ha⟩
  · rw [step_of_faulted ha] at h
    cases h
  · rw [step_of_ended ha] at h
    cases h
  · rw [step_of_faulted ha] at h
    cases h
  · rw [step_of_stepped ha] at h
    cases h
    exact ⟨hf, hc, hu, rfl, rfl⟩

/-- An executed attempt has the effect of its command. -/
theorem eq_advance_of_attempt {pos : Nat} (h : m.attempt = (.stepped c pos, m')) :
    m' = m.advance c := by
  obtain ⟨-, -, -, hm', -⟩ := of_step_eq_stepped (step_of_stepped h)
  exact hm'

theorem attempt_of_step_eq_stepped {r : StepRecord} (h : m.step = (.stepped r, m')) :
    m.attempt = (.stepped r.command r.position, m') := by
  rcases ha : m.attempt with ⟨_ | f | ⟨c, pos⟩, m₁⟩
  · rw [step_of_ended ha] at h
    cases h
  · rw [step_of_faulted ha] at h
    cases h
  · rw [step_of_stepped ha] at h
    cases h
    rfl

theorem attempt_of_step_eq_faulted {f : Fault} (h : m.step = (.faulted f, m')) :
    m.attempt = (.faulted f, m') := by
  rcases ha : m.attempt with ⟨_ | g | ⟨c, pos⟩, m₁⟩
  · rw [step_of_ended ha] at h
    cases h
  · rw [step_of_faulted ha] at h
    cases h
    rfl
  · rw [step_of_stepped ha] at h
    cases h

/-- A fault leaves all else as it was. -/
theorem of_step_eq_faulted {f : Fault} (h : m.step = (.faulted f, m')) :
    m' = { m with fault := some f } := by
  rcases m.attempt_cases with ⟨g, hg, ha⟩ | ⟨-, -, ha⟩ | ⟨-, -, -, ha⟩ | ⟨c, -, -, -, ha⟩
  · rw [step_of_faulted ha] at h
    cases h
    rw [← hg]
  · rw [step_of_ended ha] at h
    cases h
  · rw [step_of_faulted ha] at h
    cases h
    rfl
  · rw [step_of_stepped ha] at h
    cases h

theorem fault_of_attempt {f : Fault} (h : m.attempt = (.faulted f, m')) : m'.fault = some f := by
  rw [of_step_eq_faulted (step_of_faulted h)]

/-! ### The tape under a step -/

/-- The pointer is on the tape. -/
def OnTape (m : Machine) : Prop :=
  m.state.pointer < m.state.tape.length

theorem onTape_start (p : Program) {length : Nat} (h : 1 ≤ length) (input : Bytes) :
    (start p length input).OnTape := by
  rw [OnTape, start, Tape.length_blank]
  exact h

theorem onTape_of_new? {p : Program} {length : Int} {input : Bytes}
    (h : new? p length input = some m) : m.OnTape := by
  have hpos := pos_of_new? h
  rw [eq_start_of_new? h]
  exact onTape_start p (by omega) input

theorem length_right (s : State) (h : s.pointer < s.tape.length) :
    s.right.tape.length = max s.tape.length (s.right.pointer + 1) := by
  unfold State.right
  dsimp only
  split
  · dsimp only
    omega
  · dsimp only
    rw [Tape.length_grow]
    omega

/-- The tape grows exactly as far as the pointer moves past its end. -/
theorem length_advance (c : Command) (h : m.OnTape) :
    (m.advance c).state.tape.length
      = max m.state.tape.length ((m.advance c).state.pointer + 1) := by
  rw [OnTape] at h
  cases c with
  | moveRight => exact length_right m.state h
  | moveLeft | write | loopStart | loopEnd =>
    simp only [advance, perform]
    omega
  | increment | decrement =>
    simp only [advance, perform, State.store, Tape.length_set]
    omega
  | read =>
    rcases hi : m.input with _ | ⟨b, rest⟩
    · simp only [advance, perform, hi, State.store, Tape.length_set]
      omega
    · simp only [advance, perform, hi, State.store, Tape.length_set]
      omega

theorem OnTape.advance (h : m.OnTape) (c : Command) : (m.advance c).OnTape := by
  rw [OnTape, length_advance c h]
  omega

/-- The pointer stays on the tape. -/
theorem OnTape.attempt (h : m.OnTape) : m.attempt.2.OnTape :=
  attempt_preserves h (fun _ => h) (fun c _ _ _ => h.advance c)

/-! ### Several steps -/

/-- The machine after one executed step. -/
def next? (m : Machine) : Option Machine :=
  match m.attempt with
  | (.stepped _ _, m') => some m'
  | _ => none

/-- The machine after `n` executed steps, if it can take so many. -/
def after? : Nat → Machine → Option Machine
  | 0, m => some m
  | n + 1, m => m.next?.bind (after? n)

theorem next?_of_stepped {pos : Nat} (h : m.attempt = (.stepped c pos, m')) :
    m.next? = some m' := by
  unfold next?
  rw [h]

theorem next?_of_ended (h : m.attempt = (.ended, m')) : m.next? = none := by
  unfold next?
  rw [h]

theorem next?_of_faulted {f : Fault} (h : m.attempt = (.faulted f, m')) : m.next? = none := by
  unfold next?
  rw [h]

theorem after?_succ_of_stepped {pos : Nat} (h : m.attempt = (.stepped c pos, m')) (n : Nat) :
    after? (n + 1) m = after? n m' := by
  rw [after?, next?_of_stepped h, Option.bind_some]

/-- A first step is taken if any are. -/
theorem exists_of_after?_succ {n : Nat} (h : after? (n + 1) m = some m') :
    ∃ c pos m₁, m.attempt = (.stepped c pos, m₁) ∧ after? n m₁ = some m' := by
  rcases ha : m.attempt with ⟨_ | f | ⟨c, pos⟩, m₁⟩
  · rw [after?, next?_of_ended ha] at h
    cases h
  · rw [after?, next?_of_faulted ha] at h
    cases h
  · rw [after?_succ_of_stepped ha] at h
    exact ⟨c, pos, m₁, rfl, h⟩

theorem after?_add (a b : Nat) (m : Machine) :
    after? (a + b) m = (after? a m).bind (after? b) := by
  induction a generalizing m with
  | zero => rw [Nat.zero_add, after?, Option.bind_some]
  | succ a ih =>
    rw [Nat.succ_add, after?, after?]
    rcases m.next? with _ | m'
    · rfl
    · exact ih m'

theorem after?_trans {a b : Nat} {m₁ m₂ : Machine} (h₁ : after? a m = some m₁)
    (h₂ : after? b m₁ = some m₂) : after? (a + b) m = some m₂ := by
  rw [after?_add, h₁, Option.bind_some, h₂]

theorem after?_of_next?_eq_none (h : m.next? = none) (n : Nat) : after? (n + 1) m = none := by
  rw [after?, h, Option.bind_none]

/-- A machine that comes to a halt passes on its way every machine that it comes to. -/
theorem after?_cut {a n : Nat} {m₁ last : Machine} (h₁ : after? a m = some m₁)
    (hlast : after? n m = some last) (hhalt : last.next? = none) :
    ∃ d, n = a + d ∧ after? d m₁ = some last := by
  rcases Nat.le_total a n with hle | hle
  · obtain ⟨d, rfl⟩ := Nat.exists_eq_add_of_le hle
    rw [after?_add, h₁, Option.bind_some] at hlast
    exact ⟨d, rfl, hlast⟩
  · obtain ⟨d, rfl⟩ := Nat.exists_eq_add_of_le hle
    rw [after?_add, hlast, Option.bind_some] at h₁
    rcases d with _ | d
    · rw [after?, Option.some_inj] at h₁
      exact ⟨0, rfl, congrArg some h₁.symm⟩
    · rw [after?_of_next?_eq_none hhalt] at h₁
      cases h₁

/-- A machine comes to a halt once only. -/
theorem after?_halt_unique {a b : Nat} {m₁ m₂ : Machine} (h₁ : after? a m = some m₁)
    (h₂ : after? b m = some m₂) (hhalt₁ : m₁.next? = none) (hhalt₂ : m₂.next? = none) :
    a = b ∧ m₁ = m₂ := by
  obtain ⟨d, hd, hlast⟩ := after?_cut h₁ h₂ hhalt₂
  rcases d with _ | d
  · rw [after?, Option.some_inj] at hlast
    exact ⟨hd.symm, hlast⟩
  · rw [after?_of_next?_eq_none hhalt₁] at hlast
    cases hlast

end TapeMachine.Machine
