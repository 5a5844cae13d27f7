/-
Where runs stop.

A run polls its signal before every step and asks its observer behind every step. It stops at the first
of the two that objects, unless its budget is used up or the machine is done before.

* `Machine.stepsLeft`: the number of steps that a machine can still take, which may be infinite;
* `runFrom_of_raised`: a signal that is raised on the way stops the run without another attempt;
* `runFrom_of_late_signal`: a signal that is raised too late makes no difference;
* `runObservedFrom_of_failure`: the first failure of an observer stops the run behind that step;
* `run_stops_where_told`: all of this in terms of the steps left.
-/
import Mathlib.Data.ENat.Lattice
import Mathlib.Order.CompletePartialOrder
import TapeMachine.Proofs.Machine.Watch

namespace TapeMachine

namespace Machine

variable {m last : Machine}

/-! ### The steps left -/

/-- The number of steps that the machine can take before it ends or faults. -/
noncomputable def stepsLeft (m : Machine) : ℕ∞ :=
  ⨆ n : { n // (after? n m).isSome }, (n : ℕ∞)

theorem isSome_after?_of_le {a b : Nat} (hle : a ≤ b) (h : (after? b m).isSome) :
    (after? a m).isSome := by
  obtain ⟨d, rfl⟩ := Nat.exists_eq_add_of_le hle
  rw [after?_add] at h
  rcases ha : after? a m with _ | m'
  · simp [ha] at h
  · rfl

/-- The steps left are those that can be executed. -/
theorem le_stepsLeft_iff (k : Nat) : (k : ℕ∞) ≤ m.stepsLeft ↔ ∃ last, after? k m = some last := by
  rw [← Option.isSome_iff_exists]
  constructor
  · intro hle
    by_contra hnone
    rcases k with _ | k
    · exact hnone rfl
    · -- all numbers of steps that can be executed are below `k + 1`, and so is their supremum
      have hbound : m.stepsLeft ≤ (k : ℕ∞) := by
        refine iSup_le ?_
        rintro ⟨n, hn⟩
        have hlt : n < k + 1 := by
          by_contra hge
          exact hnone (isSome_after?_of_le (by omega) hn)
        exact_mod_cast Nat.lt_succ_iff.mp hlt
      have habsurd : k + 1 ≤ k := by exact_mod_cast hle.trans hbound
      omega
  · intro hsome
    exact le_iSup (fun n : { n // (after? n m).isSome } => (n : ℕ∞)) ⟨k, hsome⟩

theorem fault_of_after? {n : Nat} (h : after? n m = some last) : last.fault = m.fault := by
  induction n generalizing m with
  | zero =>
    rw [after?, Option.some_inj] at h
    rw [h]
  | succ n ih =>
    obtain ⟨c, pos, m', ha, hlast⟩ := exists_of_after?_succ h
    -- no step is executed with a fault, nor does one leave a fault
    obtain ⟨hf, -, -, hm', -⟩ := of_step_eq_stepped (step_of_stepped ha)
    rw [ih hlast, hf, hm', fault_advance]

/-- A run with a budget for steps that can be executed takes just these. -/
theorem run_of_after? {k : Nat} (h : after? k m = some last) : (m.run k).2 = last := by
  have hcut := runFrom_add k h 0 0
  rw [Nat.add_zero, runFrom] at hcut
  rw [run, Int.toNat_natCast, hcut]

/-! ### Signals -/

/-- **A signal stops the run where it is raised**: what the next step would have done does not show. -/
theorem runFrom_of_raised {k budget : Nat} (h : after? k m = some last) (hlt : k < budget)
    (cause : Interruption) (executed : Nat) :
    runFrom budget (.after k cause) executed m
      = (last.summarize (executed + k) .canceled (some (.interrupted cause)), last) := by
  obtain ⟨rest, rfl⟩ := Nat.exists_eq_add_of_lt hlt
  rw [Nat.add_assoc, runFrom_of_later? k h (Signal.later?_after k cause), runFrom, Signal.poll]

/-- **A signal that is raised too late makes no difference**: the budget is used up before, or the
program ends or faults. -/
theorem runFrom_of_late_signal (cause : Interruption) (budget : Nat) :
    ∀ {k : Nat} {m : Machine}, ¬ (k < budget ∧ (after? k m).isSome) → ∀ executed,
      runFrom budget (.after k cause) executed m = runFrom budget .never executed m := by
  induction budget with
  | zero =>
    intro k m _ executed
    rfl
  | succ budget ih =>
    intro k m hlate executed
    rcases k with _ | k
    · exact absurd ⟨Nat.succ_pos budget, rfl⟩ hlate
    · rw [runFrom, runFrom, Signal.poll, Signal.poll]
      rcases ha : m.attempt with ⟨_ | f | ⟨c, pos⟩, m'⟩
      · rfl
      · rfl
      · -- the signal has one poll less to go, and the machine one step
        rw [after?_succ_of_stepped ha] at hlate
        exact ih (fun hearly => hlate ⟨by omega, hearly.2⟩) (executed + 1)

/-! ### Observers -/

/-- The reason that a run gives whose observer fails behind a step. -/
theorem haltReason_of_failure (hf : m.fault = none) :
    (if m.done then m.haltReason else .canceled)
      = if m.program.length ≤ m.state.pc then HaltReason.programEnded else .canceled := by
  by_cases hpc : m.program.length ≤ m.state.pc
  · simp [done, haltReason, hf, hpc]
  · simp [done, hf, hpc]

/-- **The first failure of an observer stops the run behind that step**, whatever steps follow. -/
theorem runObservedFrom_of_failure {σ ε : Type} {observe : Observer σ ε} (hoff : observe.HandsOff)
    (k : Nat) : ∀ {m last : Machine} {signal : Signal} {budget executed : Nat} {s : σ} {error : ε},
      after? k m = some last → k ≤ budget → (signal.later? k).isSome →
      observe.firstFailure? (executed + 1) (takeSteps k m).1 s = some ⟨executed + k, error⟩ →
      runObservedFrom observe budget signal executed m s
        = ⟨last.summarize (executed + k)
            (if last.program.length ≤ last.state.pc then .programEnded else .canceled) none,
          last, observe.shown (executed + 1) (takeSteps k m).1 s, some ⟨executed + k, error⟩⟩ := by
  induction k with
  | zero =>
    intro m last signal budget executed s error _ _ _ hfirst
    cases hfirst
  | succ k ih =>
    intro m last signal budget executed s error h hle hquiet hfirst
    obtain ⟨c, pos, m', ha, hlast⟩ := exists_of_after?_succ h
    obtain ⟨_, hlater⟩ := Option.isSome_iff_exists.mp hquiet
    obtain ⟨signal', hpoll, hlater⟩ := Signal.exists_of_later?_succ hlater
    obtain ⟨rest, rfl⟩ := Nat.exists_eq_succ_of_ne_zero (show budget ≠ 0 by omega)
    rw [takeSteps_of_stepped (step_of_stepped ha)] at hfirst ⊢
    rw [Observer.firstFailure?] at hfirst
    rw [runObservedFrom, hpoll, step_of_stepped ha]
    dsimp only
    rw [hoff, feed_nil]
    rcases hfailure : (observe (executed + 1) ⟨m.state, m'.state, c, pos⟩ s).failure with _ | e
    · -- the observer fails at a later step, which has the same number seen from here
      rw [hfailure] at hfirst
      have hsum : executed + (k + 1) = executed + 1 + k := by omega
      rw [hsum] at hfirst ⊢
      exact ih hlast (by omega) (Option.isSome_of_eq_some hlater) hfirst
    · -- the observer fails at this step, so this is the last of the steps
      rw [hfailure, Option.some_inj, ObserverFailure.mk.injEq] at hfirst
      obtain ⟨hk, rfl⟩ := hfirst
      obtain rfl : k = 0 := by omega
      rw [after?, Option.some_inj] at hlast
      subst hlast
      have hf : m'.fault = none := by rw [eq_advance_of_attempt ha, fault_advance]
      dsimp only
      rw [haltReason_of_failure hf]
      rfl

end Machine

/-- **A run stops exactly where it is told to.** Let a machine be given, and a number `k`.
A signal that stays quiet for `k` polls stops a run behind its `k`-th step if the budget is larger and the
machine can take so many: the run is canceled for the signal's cause and leaves the machine as a run with
a budget of `k` does, without a new fault. If the budget is not larger, or the machine ends or faults
before, the signal makes no difference.
An observer that leaves the machine alone makes no difference either if it fails at none of the steps. If
its first failure is at step `k`, within the budget and the steps left, and the signal is not raised
before, the run stops behind step `k`: it has shown the steps up to this one, leaves the machine as a run
with a budget of `k` does, reports the failure and no other cause, and says that the program ended if it
did and that the run was canceled otherwise. -/
theorem run_stops_where_told (m : Machine) (budget : Int) (k : Nat) :
    (∀ cause, (k : Int) < budget → (k : ℕ∞) ≤ m.stepsLeft →
      m.run budget (.after k cause)
          = (⟨k, (m.run k).2.output, .canceled, some (.interrupted cause)⟩, (m.run k).2) ∧
        (m.run k).2.fault = m.fault) ∧
    (∀ cause, ¬ ((k : Int) < budget ∧ (k : ℕ∞) ≤ m.stepsLeft) →
      m.run budget (.after k cause) = m.run budget) ∧
    ∀ (σ ε : Type) (observe : Observer σ ε) (s : σ) (signal : Signal), observe.HandsOff →
      (observe.firstFailure? 1 (m.takeSteps (m.run budget signal).1.steps).1 s = none →
        m.runObserved budget signal observe s
          = ⟨(m.run budget signal).1, (m.run budget signal).2,
            observe.shown 1 (m.takeSteps (m.run budget signal).1.steps).1 s, none⟩) ∧
      ∀ error, (k : Int) ≤ budget → (k : ℕ∞) ≤ m.stepsLeft → (signal.later? k).isSome →
        observe.firstFailure? 1 (m.takeSteps k).1 s = some ⟨k, error⟩ →
        m.runObserved budget signal observe s
          = ⟨⟨k, (m.run k).2.output,
              if (m.run k).2.program.length ≤ (m.run k).2.state.pc then .programEnded else .canceled,
              none⟩,
            (m.run k).2, observe.shown 1 (m.takeSteps k).1 s, some ⟨k, error⟩⟩ := by
  refine ⟨?_, ?_, ?_⟩
  · intro cause hbudget hleft
    obtain ⟨last, hlast⟩ := (m.le_stepsLeft_iff k).mp hleft
    -- with as many steps left, a run with a budget of `k` is the first part of this one
    have hstop := Machine.runFrom_of_raised hlast (show k < budget.toNat by omega) cause 0
    rw [Nat.zero_add] at hstop
    rw [Machine.run_of_after? hlast]
    exact ⟨hstop, Machine.fault_of_after? hlast⟩
  · intro cause hlate
    refine Machine.runFrom_of_late_signal cause budget.toNat ?_ 0
    rintro ⟨hbudget, hsome⟩
    have hleft := (m.le_stepsLeft_iff k).mpr (Option.isSome_iff_exists.mp hsome)
    exact hlate ⟨by omega, hleft⟩
  · intro σ ε observe s signal hoff
    constructor
    · intro hnone
      -- the steps that are shown are those that the plain run counts
      obtain ⟨n, hsteps, -, hrun⟩ :=
        Machine.runObservedFrom_of_handsOff hoff budget.toNat signal 0 m s
      have hn : (m.run budget signal).1.steps = n := by
        rw [Machine.run, hsteps, Nat.zero_add]
      rw [hn] at hnone ⊢
      exact hrun hnone
    · intro error hbudget hleft hquiet hfirst
      obtain ⟨last, hlast⟩ := (m.le_stepsLeft_iff k).mp hleft
      have hfirst' : observe.firstFailure? (0 + 1) (m.takeSteps k).1 s = some ⟨0 + k, error⟩ := by
        simpa using hfirst
      have hstop := Machine.runObservedFrom_of_failure hoff k hlast
        (show k ≤ budget.toNat by omega) hquiet hfirst'
      rw [Nat.zero_add] at hstop
      rw [Machine.run_of_after? hlast]
      exact hstop

/-- A signal before the step that would fault, and an observer that fails behind the step that ends the
program. -/
theorem run_stops_where_told_before_fault :
    (∃ p m, Program.load [62, 60, 60] = .ok p ∧ Machine.new? p 1 [] = some m ∧
      (m.run 9 (.after 2 .canceled)).1 = ⟨2, [], .canceled, some (.interrupted .canceled)⟩ ∧
      (m.run 9 (.after 2 .canceled)).2.fault = none ∧
      m.run 9 (.after 3 .canceled) = m.run 9) ∧
    ∃ p m, Program.load [43, 46] = .ok p ∧ Machine.new? p 1 [] = some m ∧
      m.runObserved 9 (.after 2 .canceled)
          (fun n r (seen : List Nat) =>
            ({ state := seen ++ [r.position]
               failure := if n = 2 then some "full" else none } : Reaction _ String)) []
        = ⟨⟨2, [1], .programEnded, none⟩, (m.run 2).2, [0, 1], some ⟨2, "full"⟩⟩ := by
  have hright : Program.load [62, 60, 60] = .ok ⟨#[.moveRight, .moveLeft, .moveLeft],
      #[0, 1, 2], #[none, none, none]⟩ := rfl
  have hwrite : Program.load [43, 46] = .ok ⟨#[.increment, .write], #[0, 1], #[none, none]⟩ := rfl
  constructor
  · obtain ⟨hraised, -, -⟩ := run_stops_where_told
      (.start ⟨#[.moveRight, .moveLeft, .moveLeft], #[0, 1, 2], #[none, none, none]⟩ 1 []) 9 2
    obtain ⟨-, hlate, -⟩ := run_stops_where_told
      (.start ⟨#[.moveRight, .moveLeft, .moveLeft], #[0, 1, 2], #[none, none, none]⟩ 1 []) 9 3
    obtain ⟨hrun, hfault⟩ := hraised .canceled (by decide)
      ((Machine.le_stepsLeft_iff 2).mpr ⟨_, rfl⟩)
    refine ⟨_, _, hright, rfl, congrArg Prod.fst hrun,
      (congrArg (fun result => result.2.fault) hrun).trans hfault, hlate .canceled ?_⟩
    -- the third step faults, so it is none of the steps left
    rintro ⟨-, hleft⟩
    obtain ⟨last, hlast⟩ := (Machine.le_stepsLeft_iff 3).mp hleft
    cases hlast
  · obtain ⟨-, -, hobserved⟩ := run_stops_where_told
      (.start ⟨#[.increment, .write], #[0, 1], #[none, none]⟩ 1 []) 9 2
    obtain ⟨-, hfails⟩ := hobserved _ _
      (fun n r (seen : List Nat) =>
        ({ state := seen ++ [r.position]
           failure := if n = 2 then some "full" else none } : Reaction _ String)) []
      (.after 2 .canceled) (fun _ _ _ => rfl)
    exact ⟨_, _, hwrite, rfl, hfails "full" (by decide)
      ((Machine.le_stepsLeft_iff 2).mpr ⟨_, rfl⟩) rfl rfl⟩

end TapeMachine
