/-
Runs as executed steps.

A run executes some steps and then halts in one of four ways.

* `RunEnd`: the four ways, each with its summary;
* `run_runEnd`: the steps that a summary counts lead to a machine at which the run ends in one of
  these ways;
* `Signal.later?`: the signal after a number of polls, if it stays quiet for so long;
* `runFrom_of_later?`: a run can be cut behind any of the steps before its signal is raised;
* `runFrom_of_ended`, `runFrom_of_fault`: a machine that is done stays as it is, whatever the budget;
* `tape_snapshot`: a copy of a machine has the cells of a window.
-/
import TapeMachine.Machine.Run
import TapeMachine.Proofs.Machine.Step

namespace TapeMachine

/-! ### Signals -/

namespace Signal

/-- The signal after `n` polls, if it has stayed quiet in all of them. -/
def later? : Nat → Signal → Option Signal
  | 0, signal => some signal
  | n + 1, signal => signal.poll.toOption.bind (later? n)

theorem later?_never (n : Nat) : never.later? n = some never := by
  induction n with
  | zero => rfl
  | succ n ih => exact ih

/-- A signal is raised by the poll after those in which it stays quiet. -/
theorem later?_after (n : Nat) (cause : Interruption) :
    (after n cause).later? n = some (after 0 cause) := by
  induction n with
  | zero => rfl
  | succ n ih => exact ih

/-- A first poll is quiet if several are. -/
theorem exists_of_later?_succ {n : Nat} {signal signal' : Signal}
    (h : signal.later? (n + 1) = some signal') :
    ∃ next, signal.poll = .ok next ∧ next.later? n = some signal' := by
  rcases hpoll : signal.poll with cause | next
  · rw [later?, hpoll] at h
    cases h
  · rw [later?, hpoll] at h
    exact ⟨next, rfl, h⟩

end Signal

/-! ### The ends of runs -/

namespace Machine

/-- How a run ends that executed `n` steps, after `executed` earlier ones, and came to `last`. -/
inductive RunEnd (budget : Nat) (signal : Signal) (executed n : Nat) (last : Machine) :
    Summary × Machine → Prop
  | exhausted (h : n = budget) : RunEnd budget signal executed n last
      (last.summarize (executed + n) last.haltReason (last.fault.map .fault), last)
  | interrupted (cause : Interruption) (h : n < budget) (hsignal : signal = .after n cause) :
      RunEnd budget signal executed n last
        (last.summarize (executed + n) .canceled (some (.interrupted cause)), last)
  | ended (h : n < budget) (hlast : last.attempt = (.ended, last)) :
      RunEnd budget signal executed n last
        (last.summarize (executed + n) .programEnded none, last)
  | faulted (f : Fault) (last' : Machine) (h : n < budget)
      (hlast : last.attempt = (.faulted f, last')) : RunEnd budget signal executed n last
        (last'.summarize (executed + n) .faulted (some (.fault f)), last')

/-- One more step at the start of a run. -/
theorem RunEnd.succ {budget executed n : Nat} {signal signal' : Signal} {last : Machine}
    {result : Summary × Machine} (hpoll : signal.poll = .ok signal')
    (h : RunEnd budget signal' (executed + 1) n last result) :
    RunEnd (budget + 1) signal executed (n + 1) last result := by
  have hsum : executed + 1 + n = executed + (n + 1) := by omega
  cases h with
  | exhausted h =>
    rw [hsum]
    exact .exhausted (by omega)
  | interrupted cause h hsignal =>
    rw [hsum]
    refine .interrupted cause (by omega) ?_
    -- a signal that comes to be raised counts the polls, so it had one more to go
    rcases signal with _ | ⟨_ | k, cause'⟩
    · rw [Signal.poll] at hpoll
      cases hpoll
      cases hsignal
    · rw [Signal.poll] at hpoll
      cases hpoll
    · rw [Signal.poll] at hpoll
      cases hpoll
      cases hsignal
      rfl
  | ended h hlast =>
    rw [hsum]
    exact .ended (by omega) hlast
  | faulted f last' h hlast =>
    rw [hsum]
    exact .faulted f last' (by omega) hlast

theorem runFrom_runEnd (budget : Nat) : ∀ (signal : Signal) (executed : Nat) (m : Machine),
    ∃ n last, after? n m = some last ∧
      RunEnd budget signal executed n last (runFrom budget signal executed m) := by
  induction budget with
  | zero =>
    intro signal executed m
    exact ⟨0, m, rfl, .exhausted rfl⟩
  | succ budget ih =>
    intro signal executed m
    rw [runFrom]
    rcases hpoll : signal.poll with cause | signal'
    · refine ⟨0, m, rfl, .interrupted cause (by omega) ?_⟩
      -- a signal that is raised at once has no polls left
      rcases signal with _ | ⟨_ | k, cause'⟩
      · cases hpoll
      · cases hpoll
        rfl
      · cases hpoll
    · rcases ha : m.attempt with ⟨_ | f | ⟨c, pos⟩, m'⟩
      · have hsame := attempt_eq_ended ha
        subst hsame
        exact ⟨0, m', rfl, .ended (by omega) ha⟩
      · exact ⟨0, m, rfl, .faulted f m' (by omega) ha⟩
      · obtain ⟨n, last, hlast, hend⟩ := ih signal' (executed + 1) m'
        refine ⟨n + 1, last, ?_, hend.succ hpoll⟩
        rw [after?_succ_of_stepped ha, hlast]

theorem RunEnd.steps_eq {budget executed n : Nat} {signal : Signal} {last : Machine}
    {result : Summary × Machine} (h : RunEnd budget signal executed n last result) :
    result.1.steps = executed + n := by
  cases h <;> rfl

/-- **The steps that a summary counts** lead to the machine at which the run ends. -/
theorem run_runEnd (m : Machine) (budget : Int) (signal : Signal) :
    ∃ n last, (m.run budget signal).1.steps = n ∧ after? n m = some last ∧
      RunEnd budget.toNat signal 0 n last (m.run budget signal) := by
  obtain ⟨n, last, hlast, hend⟩ := runFrom_runEnd budget.toNat signal 0 m
  have hsteps := hend.steps_eq
  rw [Nat.zero_add] at hsteps
  exact ⟨n, last, hsteps, hlast, hend⟩

/-- A summary has the output of the machine at which the run ends. -/
theorem output_run (m : Machine) (budget : Int) (signal : Signal) :
    (m.run budget signal).1.output = (m.run budget signal).2.output := by
  obtain ⟨n, last, -, -, hend⟩ := m.run_runEnd budget signal
  generalize m.run budget signal = result at hend ⊢
  cases hend <;> rfl

/-! ### Runs that are on their way -/

/-- A run whose signal stays quiet for so long can be cut behind any of its steps. -/
theorem runFrom_of_later? (n : Nat) : ∀ {m last : Machine} {signal signal' : Signal},
    after? n m = some last → signal.later? n = some signal' →
    ∀ budget executed, runFrom (n + budget) signal executed m
      = runFrom budget signal' (executed + n) last := by
  induction n with
  | zero =>
    intro m last signal signal' h hquiet budget executed
    rw [after?, Option.some_inj] at h
    rw [Signal.later?, Option.some_inj] at hquiet
    rw [h, hquiet, Nat.zero_add, Nat.add_zero]
  | succ n ih =>
    intro m last signal signal' h hquiet budget executed
    obtain ⟨c, pos, m', ha, h⟩ := exists_of_after?_succ h
    obtain ⟨next, hpoll, hquiet⟩ := Signal.exists_of_later?_succ hquiet
    have hrest := ih h hquiet budget (executed + 1)
    rw [show executed + 1 + n = executed + (n + 1) by omega] at hrest
    rw [Nat.succ_add, runFrom, hpoll, ha]
    exact hrest

/-- A run without a signal can be cut behind any of its steps. -/
theorem runFrom_add (n : Nat) {m last : Machine} (h : after? n m = some last)
    (budget executed : Nat) :
    runFrom (n + budget) .never executed m = runFrom budget .never (executed + n) last :=
  runFrom_of_later? n h (Signal.later?_never n) budget executed

/-! ### Runs of a machine that is done -/

theorem haltReason_of_end {m : Machine} (hf : m.fault = none)
    (h : m.program.length ≤ m.state.pc) : m.haltReason = .programEnded := by
  rw [haltReason, hf, if_neg (by simp), if_pos h]

theorem haltReason_of_fault {m : Machine} {f : Fault} (h : m.fault = some f) :
    m.haltReason = .faulted := by
  rw [haltReason, h, if_pos (by simp)]

/-- At the end of the program a run takes no step, whether it has a budget or not. -/
theorem runFrom_of_ended {m : Machine} (h : m.attempt = (.ended, m)) (budget executed : Nat) :
    runFrom budget .never executed m = (m.summarize executed .programEnded none, m) := by
  rcases budget with _ | budget
  · obtain ⟨hf, hpc⟩ := of_attempt_eq_ended h
    rw [runFrom, haltReason_of_end hf hpc, hf, Option.map_none]
  · rw [runFrom, Signal.poll, h]

/-- After a fault a run takes no step and reports the fault, whether it has a budget or not. -/
theorem runFrom_of_fault {m : Machine} {f : Fault} (h : m.fault = some f) {signal signal' : Signal}
    (hpoll : signal.poll = .ok signal') (budget executed : Nat) :
    runFrom budget signal executed m = (m.summarize executed .faulted (some (.fault f)), m) := by
  rcases budget with _ | budget
  · rw [runFrom, haltReason_of_fault h, h, Option.map_some]
  · rw [runFrom, hpoll, attempt_of_fault h]

/-! ### Recorded steps in a row -/

theorem takeSteps_zero (m : Machine) : takeSteps 0 m = ([], none, m) := rfl

theorem takeSteps_of_ended {m m' : Machine} (h : m.step = (.ended, m')) (n : Nat) :
    takeSteps (n + 1) m = ([], none, m') := by
  rw [takeSteps, h]

theorem takeSteps_of_faulted {m m' : Machine} {f : Fault} (h : m.step = (.faulted f, m'))
    (n : Nat) : takeSteps (n + 1) m = ([], some f, m') := by
  rw [takeSteps, h]

theorem takeSteps_of_stepped {m m' : Machine} {r : StepRecord} (h : m.step = (.stepped r, m'))
    (n : Nat) : takeSteps (n + 1) m
      = (r :: (takeSteps n m').1, (takeSteps n m').2.1, (takeSteps n m').2.2) := by
  rw [takeSteps, h]

theorem takeSteps_of_fault {m : Machine} {f : Fault} (h : m.fault = some f) (n : Nat) :
    takeSteps (n + 1) m = ([], some f, m) :=
  takeSteps_of_faulted (step_of_faulted (attempt_of_fault h)) n

/-- Steps that can be executed are taken. -/
theorem takeSteps_of_after? (n : Nat) : ∀ {m last : Machine}, after? n m = some last →
    (takeSteps n m).2 = (none, last) := by
  induction n with
  | zero =>
    intro m last h
    rw [after?, Option.some_inj] at h
    rw [takeSteps_zero, h]
  | succ n ih =>
    intro m last h
    obtain ⟨c, pos, m', ha, h⟩ := exists_of_after?_succ h
    rw [takeSteps_of_stepped (step_of_stepped ha)]
    exact ih h

/-! ### Snapshots -/

theorem tape_snapshot (m : Machine) (cells : Int) :
    (m.snapshot cells).state.tape = m.state.tape.window cells :=
  (Tape.window_eq_ite _ _).symm

end Machine

end TapeMachine
