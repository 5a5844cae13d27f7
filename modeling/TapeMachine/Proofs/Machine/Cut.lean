/-
Runs cut in two.

A run that is broken off and gone on with does what it would have done in one go: no step is left
out and none is taken twice. How a run ends is found out in two places, in the loop and behind it, and
both say the same of a machine that is done.

* `runFrom_cut`: a run with a budget of `a + b` is one with a budget of `a`, gone on with for `b`;
* `takeSteps_cut`: the same for recorded steps in a row;
* `history`: all that happens to a machine in the course of some calls, and what becomes of it;
* `cut_anywhere`: no cut of a run or of steps in a row makes a difference.
-/
import TapeMachine.Proofs.Machine.Call

namespace TapeMachine

namespace Machine

/-! ### Runs -/

/-- The steps taken before a run count in its summary only. -/
theorem runFrom_after (k budget : Nat) : ∀ (signal : Signal) (executed : Nat) (m : Machine),
    runFrom budget signal (k + executed) m
      = ({ (runFrom budget signal executed m).1 with
            steps := k + (runFrom budget signal executed m).1.steps },
          (runFrom budget signal executed m).2) := by
  induction budget with
  | zero =>
    intro signal executed m
    rfl
  | succ budget ih =>
    intro signal executed m
    rw [runFrom, runFrom]
    rcases signal.poll with cause | signal'
    · rfl
    · rcases m.attempt with ⟨_ | f | ⟨c, pos⟩, m'⟩
      · rfl
      · rfl
      · exact ih signal' (executed + 1) m'

/-- **A run can be cut at any budget**, whatever it has come to there. -/
theorem runFrom_cut (a b : Nat) : ∀ (executed : Nat) (m : Machine),
    runFrom (a + b) .never executed m
      = runFrom b .never (runFrom a .never executed m).1.steps
          (runFrom a .never executed m).2 := by
  induction a with
  | zero =>
    intro executed m
    rw [Nat.zero_add]
    rfl
  | succ a ih =>
    intro executed m
    rcases ha : m.attempt with ⟨_ | f | ⟨c, pos⟩, m'⟩
    · -- the first part finds the program ended, and so does the second, also without a budget
      have hsame := attempt_eq_ended ha
      subst hsame
      rw [runFrom_of_ended ha, runFrom_of_ended ha]
      exact (runFrom_of_ended ha b executed).symm
    · have hfault : m'.fault = some f := fault_of_attempt ha
      rw [Nat.succ_add, runFrom, Signal.poll, ha, runFrom, Signal.poll, ha]
      exact (runFrom_of_fault hfault rfl b executed).symm
    · rw [Nat.succ_add, runFrom, Signal.poll, ha, runFrom, Signal.poll, ha]
      exact ih (executed + 1) m'

theorem run_cut (m : Machine) (a b : Nat) :
    m.run (a + b) = ({ ((m.run a).2.run b).1 with
        steps := (m.run a).1.steps + ((m.run a).2.run b).1.steps }, ((m.run a).2.run b).2) := by
  have hcut := runFrom_cut a b 0 m
  rw [← Nat.add_zero (runFrom a .never 0 m).1.steps, runFrom_after] at hcut
  exact hcut

/-! ### Recorded steps in a row -/

/-- **Steps in a row can be cut at any number**; only one of the parts reports a fault first. -/
theorem takeSteps_cut (a b : Nat) : ∀ m : Machine,
    takeSteps (a + b) m
      = ((takeSteps a m).1 ++ (takeSteps b (takeSteps a m).2.2).1,
        (takeSteps a m).2.1.or (takeSteps b (takeSteps a m).2.2).2.1,
        (takeSteps b (takeSteps a m).2.2).2.2) := by
  induction a with
  | zero =>
    intro m
    rw [Nat.zero_add]
    rfl
  | succ a ih =>
    intro m
    rcases hs : m.step with ⟨_ | f | r, m'⟩
    · have hsame := step_eq_ended hs
      subst hsame
      rw [Nat.succ_add, takeSteps_of_ended hs, takeSteps_of_ended hs]
      -- the second part asks the same machine again, unless it is asked for no step
      rcases b with _ | b
      · rfl
      · rw [takeSteps_of_ended hs]
        rfl
    · have hfault : m'.fault = some f := by rw [of_step_eq_faulted hs]
      rw [Nat.succ_add, takeSteps_of_faulted hs, takeSteps_of_faulted hs]
      rcases b with _ | b
      · rfl
      · rw [takeSteps_of_fault hfault]
        rfl
    · rw [Nat.succ_add, takeSteps_of_stepped hs, takeSteps_of_stepped hs, ih m']
      rfl

/-- Steps in a row are a run that records its steps. -/
theorem takeSteps_eq_runFrom (n : Nat) : ∀ (executed : Nat) (m : Machine),
    executed + (takeSteps n m).1.length = (runFrom n .never executed m).1.steps ∧
      (takeSteps n m).2.2 = (runFrom n .never executed m).2 := by
  induction n with
  | zero =>
    intro executed m
    exact ⟨rfl, rfl⟩
  | succ n ih =>
    intro executed m
    rw [runFrom, Signal.poll]
    rcases ha : m.attempt with ⟨_ | f | ⟨c, pos⟩, m'⟩
    · rw [takeSteps_of_ended (step_of_ended ha)]
      exact ⟨rfl, rfl⟩
    · rw [takeSteps_of_faulted (step_of_faulted ha)]
      exact ⟨rfl, rfl⟩
    · obtain ⟨hlength, hlast⟩ := ih (executed + 1) m'
      rw [takeSteps_of_stepped (step_of_stepped ha)]
      refine ⟨?_, hlast⟩
      rw [← hlength, List.length_cons]
      omega

/-- What was asked for beyond the last step makes no difference to the records. -/
theorem takeSteps_length (n : Nat) : ∀ m : Machine,
    (takeSteps (takeSteps n m).1.length m).1 = (takeSteps n m).1 := by
  induction n with
  | zero =>
    intro m
    rfl
  | succ n ih =>
    intro m
    rcases hs : m.step with ⟨_ | f | r, m'⟩
    · rw [takeSteps_of_ended hs]
      rfl
    · rw [takeSteps_of_faulted hs]
      rfl
    · rw [takeSteps_of_stepped hs, List.length_cons, takeSteps_of_stepped hs]
      dsimp only
      rw [ih m']

end Machine

/-! ### Histories -/

/-- All that happens in the course of some calls, in order, and the machine after them. -/
def history (calls : List Call) (m : Machine) : List Event × Machine :=
  (eventsOf (performAll calls m).1, (performAll calls m).2)

theorem history_pair (first second : Call) (m : Machine) :
    history [first, second] m
      = ((history [first] m).1 ++ (history [second] (history [first] m).2).1,
        (history [second] (history [first] m).2).2) := by
  rw [history, ← List.singleton_append, performAll_append, eventsOf, List.flatMap_append]
  rfl

theorem history_steps (n : Nat) (m : Machine) :
    history [.steps n] m = ((m.takeSteps n).1.map .stepped, (m.takeSteps n).2.2) :=
  Prod.ext (List.append_nil _) rfl

/-- A single step is one step in a row. -/
theorem history_step (m : Machine) : history [.step] m = history [.steps 1] m := by
  rw [history_steps, history, performAll_cons, Call.perform]
  rcases hs : m.step with ⟨_ | f | r, m'⟩
  · rw [Machine.takeSteps_of_ended hs]
    rfl
  · rw [Machine.takeSteps_of_faulted hs]
    rfl
  · rw [Machine.takeSteps_of_stepped hs]
    rfl

/-- A run without a signal takes the steps in a row that its budget allows. -/
theorem history_run (n : Nat) (m : Machine) :
    history [.run n .never] m = history [.steps n] m := by
  obtain ⟨hlength, hlast⟩ := Machine.takeSteps_eq_runFrom n 0 m
  rw [Nat.zero_add] at hlength
  -- a run reports the steps of its summary, which may be fewer than its budget allows
  have hrecords : (m.takeSteps (m.run n).1.steps).1 = (m.takeSteps n).1 := by
    rw [Machine.run, Int.toNat_natCast, ← hlength, Machine.takeSteps_length]
  rw [history_steps, history, performAll_cons, Call.perform]
  refine Prod.ext ?_ hlast.symm
  show (m.takeSteps (m.run n).1.steps).1.map Event.stepped ++ [] = _
  rw [hrecords, List.append_nil]

theorem history_steps_cut (m : Machine) (a b : Nat) :
    history [.steps a, .steps b] m = history [.steps (a + b)] m := by
  rw [history_pair, history_steps, history_steps, history_steps, Machine.takeSteps_cut,
    List.map_append]

/-- **No cut makes a difference.** A run with a budget of `a` that is gone on with for `b` leaves the
machine that a single run with a budget of `a + b` leaves; their steps add up, and the second part ends
in the same way, with the same output. And whether a run, steps in a row or a single step go on behind a
run or steps in a row, they execute what would have been executed without the break, and no more. -/
theorem cut_anywhere (m : Machine) (a b : Nat) :
    ((m.run a).2.run b).2 = (m.run (a + b)).2 ∧
      (m.run a).1.steps + ((m.run a).2.run b).1.steps = (m.run (a + b)).1.steps ∧
      ((m.run a).2.run b).1.halt = (m.run (a + b)).1.halt ∧
      ((m.run a).2.run b).1.stop = (m.run (a + b)).1.stop ∧
      ((m.run a).2.run b).1.output = (m.run (a + b)).1.output ∧
      history [.run a .never, .run b .never] m = history [.run (a + b) .never] m ∧
      history [.steps a, .steps b] m = history [.steps (a + b)] m ∧
      history [.steps a, .step] m = history [.steps (a + 1)] m ∧
      history [.steps a, .run b .never] m = history [.steps (a + b)] m ∧
      (m.takeSteps (a + b)).2.1
        = (m.takeSteps a).2.1.or ((m.takeSteps a).2.2.takeSteps b).2.1 := by
  have hrun := m.run_cut a b
  have hrunRun : history [.run a .never, .run b .never] m = history [.run (a + b) .never] m := by
    rw [history_pair, history_run a, history_run b, ← history_pair, history_steps_cut,
      ← history_run, Int.natCast_add]
  have hstep : history [.steps a, .step] m = history [.steps (a + 1)] m := by
    rw [history_pair, history_step, ← history_pair, history_steps_cut]
  have hstepsRun : history [.steps a, .run b .never] m = history [.steps (a + b)] m := by
    rw [history_pair, history_run, ← history_pair, history_steps_cut]
  rw [hrun, Machine.takeSteps_cut]
  exact ⟨rfl, rfl, rfl, rfl, rfl, hrunRun, history_steps_cut m a b, hstep, hstepsRun, rfl⟩

end TapeMachine
