/-
What summaries say.

The summary of a run is put together wherever the run can end, in the loop, behind it, and when an
observer fails. It says the same of the machine in all of these places.

* `Summary.Counts`: a summary has the output of the machine and the number of steps that it took;
* `Summary.Explains`: the reason in a summary and what stopped the run fit together, and fit the machine;
* `ObservedEnd`: how a run with an observer ends, which may feed the machine and may fail;
* `InRange.summary_runObserved`: what its summary says then;
* `summary_tells_the_truth`: what holds of every run of a machine that calls lead to.
-/
import TapeMachine.Proofs.Machine.Fault
import TapeMachine.Proofs.Machine.Range

namespace TapeMachine

/-- The summary of a run from `first` to `last` has the output and the number of steps right, and the
budget was kept. -/
structure Summary.Counts (summary : Summary) (budget : Int) (first last : Machine) : Prop where
  output : summary.output = last.output
  steps : last.steps = first.steps + summary.steps
  steps_le : (summary.steps : Int) ≤ max budget 0

/-- The reason in the summary of a run to `last` is true, and what stopped the run goes with it. -/
structure Summary.Explains (summary : Summary) (budget : Int) (signal : Signal) (last : Machine) :
    Prop where
  programEnded : summary.halt = .programEnded →
    last.state.pc = last.program.length ∧ last.fault = none
  budgetExhausted : summary.halt = .budgetExhausted →
    last.done = false ∧ (summary.steps : Int) = max budget 0
  faulted : summary.halt = .faulted → ∃ f, last.fault = some f ∧ summary.stop = some (.fault f)
  canceled : summary.halt = .canceled →
    ∃ cause, signal = .after summary.steps cause ∧ summary.stop = some (.interrupted cause)
  stop_eq_none_iff : summary.stop = none ↔
    summary.halt = .programEnded ∨ summary.halt = .budgetExhausted

namespace Machine

variable {m first last : Machine} {n executed budget : Nat} {signal : Signal}

/-! ### The ends of runs -/

/-- A machine whose steps are used up is at its end, has a fault, or could go on. -/
theorem haltReason_cases (m : Machine) :
    (m.haltReason = .programEnded ∧ m.fault = none ∧ m.program.length ≤ m.state.pc) ∨
    (∃ f, m.haltReason = .faulted ∧ m.fault = some f) ∨
    (m.haltReason = .budgetExhausted ∧ m.fault = none ∧ m.done = false) := by
  rcases hf : m.fault with _ | f
  · by_cases hpc : m.program.length ≤ m.state.pc
    · exact .inl ⟨haltReason_of_end hf hpc, rfl, hpc⟩
    · have hreason : m.haltReason = .budgetExhausted := by simp [haltReason, hf, hpc]
      have hdone : m.done = false := by simp [done, hf, hpc]
      exact .inr (.inr ⟨hreason, rfl, hdone⟩)
  · exact .inr (.inl ⟨f, haltReason_of_fault hf, rfl⟩)

/-- A run counts its steps and reports the output, in whatever way it ends. -/
theorem RunEnd.counts {budget : Int} {result : Summary × Machine}
    (h : RunEnd budget.toNat signal 0 n last result) (hsteps : last.steps = first.steps + n) :
    result.1.Counts budget first result.2 := by
  cases h with
  | exhausted h => exact ⟨rfl, by simp [summarize, hsteps], by simp only [summarize]; omega⟩
  | interrupted cause h =>
    exact ⟨rfl, by simp [summarize, hsteps], by simp only [summarize]; omega⟩
  | ended h => exact ⟨rfl, by simp [summarize, hsteps], by simp only [summarize]; omega⟩
  | faulted f last' h hlast =>
    -- the attempt that faults is none of the steps
    have hlast' := of_step_eq_faulted (step_of_faulted hlast)
    refine ⟨rfl, ?_, by simp only [summarize]; omega⟩
    simp [summarize, hlast', hsteps]

/-- A run says why it ended, if its machine keeps the program counter in the program. -/
theorem RunEnd.explains {budget : Int} {result : Summary × Machine}
    (h : RunEnd budget.toNat signal 0 n last result)
    (hpc : result.2.state.pc ≤ result.2.program.length) :
    result.1.Explains budget signal result.2 := by
  cases h with
  | exhausted h =>
    -- the reason is looked up behind the loop, so all but an interruption can come up
    have hsteps : (n : Int) = max budget 0 := by omega
    rcases last.haltReason_cases with ⟨hreason, hf, hend⟩ | ⟨f, hreason, hf⟩ | ⟨hreason, hf, hdone⟩
    · have hstate : last.state.pc = last.program.length := Nat.le_antisymm hpc hend
      constructor <;> simp [summarize, hreason, hf, hstate]
    · constructor <;> simp [summarize, hreason, hf]
    · constructor <;> simp [summarize, hreason, hf, hdone, hsteps]
  | interrupted cause h hsignal =>
    constructor <;> simp [summarize, hsignal]
  | ended h hlast =>
    obtain ⟨hf, hend⟩ := of_attempt_eq_ended hlast
    have hstate : last.state.pc = last.program.length := Nat.le_antisymm hpc hend
    constructor <;> simp [summarize, hf, hstate]
  | faulted f last' h hlast =>
    have hf : last'.fault = some f := fault_of_attempt hlast
    constructor <;> simp [summarize, hf]

/-! ### The ends of observed runs -/

/-- How a run with an observer ends that executed `n` steps, after `executed` earlier ones, and came to
`last`: as runs without one do, or behind the step at which the observer failed. -/
inductive ObservedEnd {σ ε : Type} (budget : Nat) (signal : Signal) (executed n : Nat)
    (last : Machine) : ObservedRun σ ε → Prop
  | finished (summary : Summary) (machine : Machine) (s : σ)
      (h : RunEnd budget signal executed n last (summary, machine)) :
      ObservedEnd budget signal executed n last ⟨summary, machine, s, none⟩
  | failed (halt : HaltReason) (s : σ) (error : ε) (h : n ≤ budget) :
      ObservedEnd budget signal executed n last
        ⟨last.summarize (executed + n) halt none, last, s, some ⟨executed + n, error⟩⟩

theorem ObservedEnd.succ {σ ε : Type} {signal' : Signal} {run : ObservedRun σ ε}
    (hpoll : signal.poll = .ok signal') (h : ObservedEnd budget signal' (executed + 1) n last run) :
    ObservedEnd (budget + 1) signal executed (n + 1) last run := by
  cases h with
  | finished summary machine s h => exact .finished summary machine s (h.succ hpoll)
  | failed halt s error h =>
    rw [show executed + 1 + n = executed + (n + 1) by omega]
    exact .failed halt s error (by omega)

/-- **A run with an observer ends in one of these ways**, whatever the observer feeds. -/
theorem runObservedFrom_observedEnd {σ ε : Type} (observe : Observer σ ε) (budget : Nat) :
    ∀ (signal : Signal) (executed : Nat) (m : Machine) (s : σ), ∃ n last,
      last.steps = m.steps + n ∧
      ObservedEnd budget signal executed n last
        (runObservedFrom observe budget signal executed m s) := by
  induction budget with
  | zero =>
    intro signal executed m s
    exact ⟨0, m, rfl, .finished _ m s (.exhausted rfl)⟩
  | succ budget ih =>
    intro signal executed m s
    rw [runObservedFrom]
    rcases hpoll : signal.poll with cause | signal'
    · have hsignal : signal = .after 0 cause := by
        rcases signal with _ | ⟨_ | k, cause'⟩ <;> cases hpoll
        rfl
      exact ⟨0, m, rfl, .finished _ m s (.interrupted cause (by omega) hsignal)⟩
    · rcases ha : m.attempt with ⟨_ | f | ⟨c, pos⟩, m'⟩
      · have hsame := attempt_eq_ended ha
        subst hsame
        rw [step_of_ended ha]
        exact ⟨0, m', rfl, .finished _ m' s (.ended (by omega) ha)⟩
      · rw [step_of_faulted ha]
        exact ⟨0, m, rfl, .finished _ m' s (.faulted f m' (by omega) ha)⟩
      · have hsteps : m'.steps = m.steps + 1 := by rw [eq_advance_of_attempt ha, steps_advance]
        rw [step_of_stepped ha]
        dsimp only
        rcases (observe (executed + 1) ⟨m.state, m'.state, c, pos⟩ s).failure with _ | error
        · obtain ⟨n, last, hlast, hend⟩ := ih signal' (executed + 1)
            (m'.feed (observe (executed + 1) ⟨m.state, m'.state, c, pos⟩ s).feed)
            (observe (executed + 1) ⟨m.state, m'.state, c, pos⟩ s).state
          -- what the observer feeds is no step
          have hfeed : last.steps = m'.steps + n := hlast
          exact ⟨n + 1, last, by omega, hend.succ hpoll⟩
        · exact ⟨1, m'.feed _, hsteps, .failed _ _ error (by omega)⟩

theorem ObservedEnd.summary {σ ε : Type} {budget : Int} {run : ObservedRun σ ε}
    (h : ObservedEnd budget.toNat signal 0 n last run) (hsteps : last.steps = first.steps + n)
    (hpc : run.machine.state.pc ≤ run.machine.program.length) :
    run.summary.Counts budget first run.machine ∧
      (run.failure = none → run.summary.Explains budget signal run.machine) := by
  cases h with
  | finished summary machine s h => exact ⟨h.counts hsteps, fun _ => h.explains hpc⟩
  | failed halt s error h =>
    -- nothing is said about the reason when the observer failed
    refine ⟨⟨rfl, by simp [summarize, hsteps], by simp only [summarize]; omega⟩, ?_⟩
    intro hnone
    cases hnone

/-- **The summary of a run with an observer**, of a machine that is within its program. -/
theorem InRange.summary_runObserved {src : Bytes} {p : Program} (hload : Program.load src = .ok p)
    {least : Nat} (h : m.InRange p least) {σ ε : Type} (budget : Int) (signal : Signal)
    (observe : Observer σ ε) (s : σ) :
    (m.runObserved budget signal observe s).summary.Counts budget m
        (m.runObserved budget signal observe s).machine ∧
      ((m.runObserved budget signal observe s).failure = none →
        (m.runObserved budget signal observe s).summary.Explains budget signal
          (m.runObserved budget signal observe s).machine) := by
  obtain ⟨n, last, hsteps, hend⟩ := runObservedFrom_observedEnd observe budget.toNat signal 0 m s
  -- feeding and steps keep the program counter in the program
  have hafter := (m.path_runObserved budget signal observe s).preserves
    (InRange.attempt hload) InRange.feed h
  refine hend.summary hsteps ?_
  have hpc := hafter.pc_le
  rwa [← hafter.program] at hpc

end Machine

/-- **A summary tells the truth.** Of every machine that calls lead to from the start of a loaded
program, and every budget and signal: the summary of a run, with an observer or without, has the output
of the machine that the run leaves and the number of steps by which it got there, which the budget allows.
If no observer fails, the reason is true: a program that ended ended right behind its last command and
without a fault; with an exhausted budget all of it was used and the machine is not done; a fault is the
machine's own; and a cancellation is by the signal, at this step. The summary names a fault or an
interruption for the last two reasons and only for them. -/
theorem summary_tells_the_truth {src : Bytes} {p : Program} (hload : Program.load src = .ok p)
    {length : Int} {input : Bytes} {m₀ m : Machine} (hstart : Machine.new? p length input = some m₀)
    (calls : List Call) (hm : (performAll calls m₀).2 = m) (budget : Int) (signal : Signal) :
    ((m.run budget signal).1.Counts budget m (m.run budget signal).2 ∧
      (m.run budget signal).1.Explains budget signal (m.run budget signal).2) ∧
    ∀ (σ ε : Type) (observe : Observer σ ε) (s : σ),
      (m.runObserved budget signal observe s).summary.Counts budget m
          (m.runObserved budget signal observe s).machine ∧
        ((m.runObserved budget signal observe s).failure = none →
          (m.runObserved budget signal observe s).summary.Explains budget signal
            (m.runObserved budget signal observe s).machine) := by
  have hrange : m.InRange p length.toNat := by
    rw [← hm]
    exact (path_performAll calls m₀).preserves (Machine.InRange.attempt hload)
      Machine.InRange.feed (Machine.inRange_of_new? hstart)
  refine ⟨?_, fun σ ε observe s => hrange.summary_runObserved hload budget signal observe s⟩
  -- without an observer the run is the one that an idle observer sees
  obtain ⟨_, -, -, hrun⟩ :=
    Machine.runObservedFrom_of_quiet Observer.quiet_idle budget.toNat signal 0 m ()
  obtain ⟨hcounts, hexplains⟩ :=
    hrange.summary_runObserved hload budget signal (.idle : Observer Unit Empty) ()
  rw [Machine.runObserved, hrun] at hcounts hexplains
  exact ⟨hcounts, hexplains rfl⟩

/-- A machine that a run has left in front of a fault, and runs that go on with it. -/
theorem summary_tells_the_truth_at_fault :
    ∃ p m₀ m, Program.load [44, 46, 60] = .ok p ∧ Machine.new? p 1 [7] = some m₀ ∧
      (performAll [.run 2 .never] m₀).2 = m ∧
      (m.run 9).1 = ⟨0, [7], .faulted, some (.fault ⟨2⟩)⟩ ∧
      (m.run 9).1.Explains 9 .never (m.run 9).2 ∧
      (m.run (-3)).1 = ⟨0, [7], .budgetExhausted, none⟩ ∧
      (m.run (-3)).1.Counts (-3) m (m.run (-3)).2 := by
  have hload : Program.load [44, 46, 60] = .ok ⟨#[.read, .write, .moveLeft], #[0, 1, 2],
      #[none, none, none]⟩ := rfl
  have hstart : Machine.new? ⟨#[.read, .write, .moveLeft], #[0, 1, 2], #[none, none, none]⟩ 1 [7]
      = some _ := rfl
  obtain ⟨⟨-, hexplains⟩, -⟩ :=
    summary_tells_the_truth hload hstart [.run 2 .never] rfl 9 .never
  obtain ⟨⟨hcounts, -⟩, -⟩ :=
    summary_tells_the_truth hload hstart [.run 2 .never] rfl (-3) .never
  exact ⟨_, _, _, hload, hstart, rfl, rfl, hexplains, rfl, hcounts⟩

end TapeMachine
