/-
Watched runs.

A run that shows its steps to an observer takes them in a loop of its own, which copies the state before
and after each step and asks in another place whether the program has ended. Watching it changes nothing
nevertheless.

* `Observer.HandsOff`: an observer that leaves the machine alone, and `Observer.Quiet` one that never fails
  besides;
* `Observer.firstFailure?`: the first of some steps at which an observer fails;
* `runObservedFrom_of_handsOff`: if an observer leaves the machine alone and fails at none of the steps,
  the two loops do the same, and the observer is shown the recorded steps in their order;
* `runObservedFrom_induction`: the induction on runs under any observer;
* `runObservedFrom_preserves`: what every reaction of an observer keeps, a run without a failure keeps;
* `failure_runObservedFrom`: a run fails only if its observer does;
* `observed_preserves`: what every reaction keeps of the steps shown so far holds of all steps of a run;
* `watching_changes_nothing`: what holds of whole runs.
-/
import TapeMachine.Proofs.Machine.Call

namespace TapeMachine

/-- An observer that never fails and leaves the machine alone. -/
def Observer.Quiet {σ ε : Type} (observe : Observer σ ε) : Prop :=
  ∀ n r s, (observe n r s).feed = [] ∧ (observe n r s).failure = none

/-- What becomes of an observer that is shown some steps, numbered from `first` on. -/
def Observer.shown {σ ε : Type} (observe : Observer σ ε) (first : Nat) (rs : List StepRecord)
    (s : σ) : σ :=
  (rs.zipIdx first).foldl (fun s (r, n) => (observe n r s).state) s

/-- An observer that leaves the machine alone, whether it fails or not. -/
def Observer.HandsOff {σ ε : Type} (observe : Observer σ ε) : Prop :=
  ∀ n r s, (observe n r s).feed = []

/-- The first failure of an observer that is shown some steps, numbered from `first` on. -/
def Observer.firstFailure? {σ ε : Type} (observe : Observer σ ε) :
    Nat → List StepRecord → σ → Option (ObserverFailure ε)
  | _, [], _ => none
  | first, r :: rs, s =>
    match (observe first r s).failure with
    | some error => some ⟨first, error⟩
    | none => observe.firstFailure? (first + 1) rs (observe first r s).state

namespace Observer

variable {σ ε : Type} {observe : Observer σ ε}

theorem of_firstFailure?_cons_eq_none {first : Nat} {r : StepRecord} {rs : List StepRecord} {s : σ}
    (h : observe.firstFailure? first (r :: rs) s = none) :
    (observe first r s).failure = none ∧
      observe.firstFailure? (first + 1) rs (observe first r s).state = none := by
  rw [firstFailure?] at h
  rcases hfailure : (observe first r s).failure with _ | error
  · rw [hfailure] at h
    exact ⟨rfl, h⟩
  · rw [hfailure] at h
    cases h

theorem Quiet.handsOff (hquiet : observe.Quiet) : observe.HandsOff :=
  fun n r s => (hquiet n r s).1

theorem Quiet.firstFailure?_eq_none (hquiet : observe.Quiet) (first : Nat) (rs : List StepRecord)
    (s : σ) : observe.firstFailure? first rs s = none := by
  induction rs generalizing first s with
  | nil => rfl
  | cons r rs ih => rw [firstFailure?, (hquiet first r s).2, ih]

/-- **Induction on the steps that an observer is shown**: if it does not fail at the next one, in whatever
state it is after those before, it fails at none. -/
theorem shown_induction {P : List StepRecord → σ → Prop} {all : List StepRecord}
    (hstep : ∀ seen r s, seen ++ [r] <+: all → P seen s →
      (observe (seen.length + 1) r s).failure = none ∧
        P (seen ++ [r]) (observe (seen.length + 1) r s).state) (rest : List StepRecord) :
    ∀ {seen : List StepRecord} {s : σ}, seen ++ rest = all → P seen s →
      observe.firstFailure? (seen.length + 1) rest s = none ∧
        P all (observe.shown (seen.length + 1) rest s) := by
  induction rest with
  | nil =>
    intro seen s hall hs
    rw [List.append_nil] at hall
    exact ⟨rfl, hall ▸ hs⟩
  | cons r rest ih =>
    intro seen s hall hs
    have hnext : seen ++ [r] ++ rest = all := by rw [← hall, List.append_assoc, List.singleton_append]
    obtain ⟨hfailure, hs'⟩ := hstep seen r s ⟨rest, hnext⟩ hs
    have hrest := ih hnext hs'
    rw [List.length_append, List.length_singleton] at hrest
    rw [firstFailure?, hfailure]
    exact hrest

end Observer

namespace Machine

@[simp] theorem feed_nil (m : Machine) : m.feed [] = m := by
  rw [feed, List.append_nil]

/-- **The loop with an observer and the loop without do the same**, if the observer leaves the machine
alone and fails at none of the steps that the run executes. -/
theorem runObservedFrom_of_handsOff {σ ε : Type} {observe : Observer σ ε} (hoff : observe.HandsOff)
    (budget : Nat) : ∀ (signal : Signal) (executed : Nat) (m : Machine) (s : σ), ∃ n,
      (runFrom budget signal executed m).1.steps = executed + n ∧
      (takeSteps n m).1.length = n ∧
      (observe.firstFailure? (executed + 1) (takeSteps n m).1 s = none →
        runObservedFrom observe budget signal executed m s
          = ⟨(runFrom budget signal executed m).1, (runFrom budget signal executed m).2,
            observe.shown (executed + 1) (takeSteps n m).1 s, none⟩) := by
  induction budget with
  | zero =>
    intro signal executed m s
    exact ⟨0, rfl, rfl, fun _ => rfl⟩
  | succ budget ih =>
    intro signal executed m s
    rw [runFrom, runObservedFrom]
    rcases signal.poll with cause | signal'
    · exact ⟨0, rfl, rfl, fun _ => rfl⟩
    · rcases ha : m.attempt with ⟨_ | f | ⟨c, pos⟩, m'⟩
      · rw [step_of_ended ha]
        exact ⟨0, rfl, rfl, fun _ => rfl⟩
      · rw [step_of_faulted ha]
        exact ⟨0, rfl, rfl, fun _ => rfl⟩
      · have hfeed := hoff (executed + 1) ⟨m.state, m'.state, c, pos⟩ s
        obtain ⟨n, hsteps, hlength, hrun⟩ := ih signal' (executed + 1) m'
          (observe (executed + 1) ⟨m.state, m'.state, c, pos⟩ s).state
        rw [step_of_stepped ha]
        dsimp only
        rw [hfeed, feed_nil]
        -- the steps that follow are numbered from the one that was just shown
        refine ⟨n + 1, by rw [hsteps]; omega, ?_, ?_⟩
        · rw [takeSteps_of_stepped (step_of_stepped ha), List.length_cons, hlength]
        · intro hnone
          rw [takeSteps_of_stepped (step_of_stepped ha)] at hnone ⊢
          obtain ⟨hfailure, hnone⟩ := Observer.of_firstFailure?_cons_eq_none hnone
          rw [hfailure]
          exact hrun hnone

/-- A quiet observer watches the loop without changing it. -/
theorem runObservedFrom_of_quiet {σ ε : Type} {observe : Observer σ ε} (hquiet : observe.Quiet)
    (budget : Nat) (signal : Signal) (executed : Nat) (m : Machine) (s : σ) : ∃ n,
      (runFrom budget signal executed m).1.steps = executed + n ∧
      (takeSteps n m).1.length = n ∧
      runObservedFrom observe budget signal executed m s
        = ⟨(runFrom budget signal executed m).1, (runFrom budget signal executed m).2,
          observe.shown (executed + 1) (takeSteps n m).1 s, none⟩ := by
  obtain ⟨n, hsteps, hlength, hrun⟩ :=
    runObservedFrom_of_handsOff hquiet.handsOff budget signal executed m s
  exact ⟨n, hsteps, hlength, hrun (hquiet.firstFailure?_eq_none (executed + 1) _ s)⟩

/-- **Induction on an observed run**: it halts where it is, or a reaction makes it fail, or it shows a
step to an observer that does not fail and goes on. -/
theorem runObservedFrom_induction {σ ε : Type} {observe : Observer σ ε}
    {Q : Nat → σ → ObservedRun σ ε → Prop}
    (hhalt : ∀ n m s halt stop, Q n s ⟨m.summarize n halt stop, m, s, none⟩)
    (hfail : ∀ n r s m halt error, (observe (n + 1) r s).failure = some error →
      Q n s ⟨m.summarize (n + 1) halt none, m, (observe (n + 1) r s).state, some ⟨n + 1, error⟩⟩)
    (hshow : ∀ n r s run, (observe (n + 1) r s).failure = none →
      Q (n + 1) (observe (n + 1) r s).state run → Q n s run)
    (budget : Nat) : ∀ (signal : Signal) (n : Nat) (m : Machine) (s : σ),
      Q n s (runObservedFrom observe budget signal n m s) := by
  induction budget with
  | zero =>
    intro signal n m s
    exact hhalt n m s _ _
  | succ budget ih =>
    intro signal n m s
    rw [runObservedFrom]
    rcases signal.poll with cause | signal'
    · exact hhalt n m s _ _
    · rcases m.step with ⟨_ | f | r, m'⟩
      · exact hhalt n m' s _ _
      · exact hhalt n m' s _ _
      · dsimp only
        rcases hfailure : (observe (n + 1) r s).failure with _ | error
        · exact hshow n r s _ hfailure (ih signal' (n + 1) _ _)
        · exact hfail n r s _ _ error hfailure

/-- **What every reaction of an observer keeps, a run without a failure keeps.** -/
theorem runObservedFrom_preserves {σ ε : Type} {observe : Observer σ ε} {P : Nat → σ → Prop}
    (hreaction : ∀ n r s, P n s → (observe (n + 1) r s).failure = none →
      P (n + 1) (observe (n + 1) r s).state) (budget : Nat) (signal : Signal) (n : Nat)
    (m : Machine) (s : σ) :
    P n s → (runObservedFrom observe budget signal n m s).failure = none →
      P (runObservedFrom observe budget signal n m s).summary.steps
        (runObservedFrom observe budget signal n m s).state := by
  refine runObservedFrom_induction
    (Q := fun n s run => P n s → run.failure = none → P run.summary.steps run.state)
    ?_ ?_ ?_ budget signal n m s
  · intro n m s halt stop hs _
    exact hs
  · intro n r s m halt error _ _ hnone
    cases hnone
  · intro n r s run hfailure ih hs
    exact ih (hreaction n r s hs hfailure)

/-- A run does not fail if its observer fails in no state that it comes to. -/
theorem failure_runObservedFrom {σ ε : Type} {observe : Observer σ ε} {P : σ → Prop}
    (hreaction : ∀ n r s, P s → (observe n r s).failure = none ∧ P (observe n r s).state)
    (budget : Nat) (signal : Signal) (n : Nat) (m : Machine) (s : σ) :
    P s → (runObservedFrom observe budget signal n m s).failure = none := by
  refine runObservedFrom_induction (Q := fun _ s run => P s → run.failure = none)
    ?_ ?_ ?_ budget signal n m s
  · intro n m s halt stop _
    rfl
  · intro n r s m halt error hfailure hs
    rw [(hreaction (n + 1) r s hs).1] at hfailure
    cases hfailure
  · intro n r s run _ ih hs
    exact ih (hreaction (n + 1) r s hs).2

/-- A summary holds the output of the machine that the run leaves. -/
theorem output_runObservedFrom {σ ε : Type} (observe : Observer σ ε) (budget : Nat)
    (signal : Signal) (n : Nat) (m : Machine) (s : σ) :
    (runObservedFrom observe budget signal n m s).summary.output
      = (runObservedFrom observe budget signal n m s).machine.output :=
  runObservedFrom_induction (Q := fun _ _ run => run.summary.output = run.machine.output)
    (fun _ _ _ _ _ => rfl) (fun _ _ _ _ _ _ _ => rfl) (fun _ _ _ _ _ ih => ih)
    budget signal n m s

/-- Steps in a row can be taken one by one. -/
theorem performAll_replicate_step (n : Nat) : ∀ {m : Machine}, (m.takeSteps n).1.length = n →
    performAll (List.replicate n .step) m
      = ((m.takeSteps n).1.map fun r => { events := [.stepped r] }, (m.takeSteps n).2.2) := by
  induction n with
  | zero =>
    intro m _
    rfl
  | succ n ih =>
    intro m h
    rcases hs : m.step with ⟨_ | f | r, m'⟩
    · rw [takeSteps_of_ended hs] at h
      cases h
    · rw [takeSteps_of_faulted hs] at h
      cases h
    · rw [takeSteps_of_stepped hs, List.length_cons] at h
      rw [List.replicate_succ, performAll_cons, Call.perform, hs, takeSteps_of_stepped hs]
      dsimp only
      rw [ih (Nat.succ.inj h), List.map_cons]

end Machine

/-- **What every reaction keeps of the steps shown so far** holds of all steps shown in a run without a
failure, and these are as many as the summary says. -/
theorem observed_preserves {σ ε : Type} {observe : Observer σ ε} {P : List StepRecord → σ → Prop}
    (hreaction : ∀ rs r s, P rs s → (observe (rs.length + 1) r s).failure = none →
      P (rs ++ [r]) (observe (rs.length + 1) r s).state)
    {m : Machine} {budget : Int} {signal : Signal} {s : σ} (hs : P [] s)
    (hfailure : (m.runObserved budget signal observe s).failure = none) :
    (records (Call.perform m (.observe budget signal observe s)).1.events).length
        = (m.runObserved budget signal observe s).summary.steps ∧
      P (records (Call.perform m (.observe budget signal observe s)).1.events)
        (m.runObserved budget signal observe s).state := by
  obtain ⟨es, hnoting, -⟩ :=
    Machine.runObservedFrom_noting observe budget.toNat signal 0 m [] s
  have hevents : (Call.perform m (.observe budget signal observe s)).1.events = es :=
    congrArg (fun run => run.state.1) hnoting
  -- the observer that notes the steps reacts as the other one does
  have hnotes : ∀ n r (noted : List Event × σ),
      (records noted.1).length = n ∧ P (records noted.1) noted.2 →
      (observe.noting (n + 1) r noted).failure = none →
      (records (observe.noting (n + 1) r noted).state.1).length = n + 1 ∧
        P (records (observe.noting (n + 1) r noted).state.1)
          (observe.noting (n + 1) r noted).state.2 := by
    rintro n r ⟨es, s⟩ ⟨rfl, hes⟩ hstep
    have hrecords : records (observe.noting ((records es).length + 1) r (es, s)).state.1
        = records es ++ [r] := by
      rw [Observer.noting, records_append]
      rfl
    rw [hrecords]
    exact ⟨List.length_append, hreaction (records es) r s hes hstep⟩
  have hkept := Machine.runObservedFrom_preserves
    (P := fun n (noted : List Event × σ) =>
      (records noted.1).length = n ∧ P (records noted.1) noted.2)
    hnotes budget.toNat signal 0 m ([], s) ⟨rfl, hs⟩
  rw [hnoting] at hkept
  rw [hevents]
  exact hkept hfailure

/-- **Watching a run changes nothing.** Whatever the budget and the signal, a run under a quiet observer
has the summary of a plain run and leaves the machine that it leaves. The observer is shown steps numbered
from 1 up to the number in the summary, in order: the records of as many steps in a row, or of as many
single steps. And a recorded step, which asks first whether the machine is done, agrees with the plain
attempt on where the program ends. -/
theorem watching_changes_nothing {σ ε : Type} (m : Machine) (budget : Int) (signal : Signal)
    {observe : Observer σ ε} (hquiet : observe.Quiet) (s : σ) :
    (∃ rs, rs.length = (m.run budget signal).1.steps ∧
      (m.takeSteps rs.length).1 = rs ∧
      (performAll (List.replicate rs.length .step) m).1
        = rs.map (fun r => { events := [.stepped r] }) ∧
      m.runObserved budget signal observe s
        = ⟨(m.run budget signal).1, (m.run budget signal).2, observe.shown 1 rs s, none⟩) ∧
    (m.done = true → m.step = (m.fault.elim .ended .faulted, m)) ∧
    (m.done = false → m.attempt.1 ≠ .ended) := by
  refine ⟨?_, Machine.step_of_done, Machine.attempt_ne_ended⟩
  obtain ⟨n, hsteps, hlength, hrun⟩ :=
    Machine.runObservedFrom_of_quiet hquiet budget.toNat signal 0 m s
  rw [Nat.zero_add] at hsteps
  refine ⟨(m.takeSteps n).1, hlength.trans hsteps.symm, by rw [hlength], ?_, hrun⟩
  rw [hlength, Machine.performAll_replicate_step n hlength]

/-- An observer that notes the number and the position of every step, of a program that runs into a
fault. -/
theorem watching_changes_nothing_up_to_fault :
    ∃ p m, Program.load [43, 91, 60, 93] = .ok p ∧ Machine.new? p 1 [] = some m ∧
      m.runObserved 9 (.after 7 .canceled)
          (fun n r (seen : List (Nat × Nat)) =>
            ({ state := seen ++ [(n, r.position)] } : Reaction _ Unit)) []
        = ⟨⟨2, [], .faulted, some (.fault ⟨2⟩)⟩, (m.run 9 (.after 7 .canceled)).2,
          [(1, 0), (2, 1)], none⟩ := by
  have hload : Program.load [43, 91, 60, 93] = .ok ⟨#[.increment, .loopStart, .moveLeft, .loopEnd],
      #[0, 1, 2, 3], #[none, some 3, none, some 1]⟩ := rfl
  refine ⟨_, _, hload, rfl, ?_⟩
  obtain ⟨⟨rs, hlength, hrs, -, hrun⟩, -⟩ := watching_changes_nothing
    (Machine.start ⟨#[.increment, .loopStart, .moveLeft, .loopEnd], #[0, 1, 2, 3],
      #[none, some 3, none, some 1]⟩ 1 []) 9 (.after 7 .canceled)
    (show Observer.Quiet (fun n r (seen : List (Nat × Nat)) =>
        ({ state := seen ++ [(n, r.position)] } : Reaction _ Unit)) from
      fun _ _ _ => ⟨rfl, rfl⟩) []
  rw [hlength] at hrs
  rw [← hrs] at hrun
  exact hrun

end TapeMachine
