/-
Calls on a machine and the paths that they take it.

A machine is moved by single steps, by steps in a row that may be broken off, by plain and observed
runs, and by feeding it input.

* `Call` and `Call.perform`: the calls, and what each of them reports;
* `Path`: the machine comes from one state to another by executed steps, by feeding and by faults;
* `path_performAll`: every sequence of calls takes the machine along a path, with the executed steps
  and the fed bytes in the order in which they are reported.

An invariant of machines therefore needs two proofs only: that attempts to take a step keep it, and
that feeding does (`Path.preserves`).
-/
import TapeMachine.Proofs.Machine.Run

namespace TapeMachine

/-- What happens to a machine in the course of time. -/
inductive Event where
  | stepped (record : StepRecord)
  | fed (bytes : Bytes)

/-- The executed step that an event is. -/
def Event.record? : Event → Option StepRecord
  | stepped r => some r
  | fed _ => none

/-- The executed steps among some events. -/
def records (es : List Event) : List StepRecord :=
  es.filterMap Event.record?

@[simp] theorem records_nil : records [] = [] := rfl

@[simp] theorem records_append (es fs : List Event) :
    records (es ++ fs) = records es ++ records fs :=
  List.filterMap_append

@[simp] theorem records_stepped (r : StepRecord) : records [.stepped r] = [r] := rfl

@[simp] theorem records_fed (bytes : Bytes) : records [.fed bytes] = [] := rfl

/-- An observer that notes what it is shown and what it feeds, and reacts like another one. -/
def Observer.noting {σ ε : Type} (observe : Observer σ ε) : Observer (List Event × σ) ε :=
  fun n r s =>
    let reaction := observe n r s.2
    { state := (s.1 ++ [.stepped r, .fed reaction.feed], reaction.state)
      feed := reaction.feed
      failure := reaction.failure }

/-- A call on a machine. -/
inductive Call : Type 1 where
  /-- A single recorded step. -/
  | step
  /-- Recorded steps in a row, broken off after `limit` of them. -/
  | steps (limit : Nat)
  | run (budget : Int) (signal : Signal)
  | observe {σ ε : Type} (budget : Int) (signal : Signal) (observer : Observer σ ε) (state : σ)
  | feed (bytes : Bytes)

/-- What a call did and said: the steps that it executed, shown to anyone or not, and the bytes that
its observer fed; the fault that a step reported; and the summary of a run. -/
structure Report where
  events : List Event := []
  fault : Option Fault := none
  summary : Option Summary := none

/-- Performs a call. -/
def Call.perform (m : Machine) : Call → Report × Machine
  | step =>
    match m.step with
    | (.ended, m') => ({}, m')
    | (.faulted f, m') => ({ fault := some f }, m')
    | (.stepped r, m') => ({ events := [.stepped r] }, m')
  | steps limit =>
    let (rs, fault, m') := m.takeSteps limit
    ({ events := rs.map .stepped, fault }, m')
  | run budget signal =>
    let (summary, m') := m.run budget signal
    ({ events := (m.takeSteps summary.steps).1.map .stepped, summary := some summary }, m')
  | observe budget signal observer s =>
    let r := m.runObserved budget signal observer s
    let noted := m.runObserved budget signal observer.noting ([], s)
    ({ events := noted.state.1, summary := some r.summary }, r.machine)
  | feed bytes => ({ events := [.fed bytes] }, m.feed bytes)

/-- Performs calls one after the other. -/
def performAll : List Call → Machine → List Report × Machine
  | [], m => ([], m)
  | call :: calls, m =>
    let (report, m') := call.perform m
    let (reports, m'') := performAll calls m'
    (report :: reports, m'')

/-- All that happened according to some reports. -/
def eventsOf (reports : List Report) : List Event :=
  reports.flatMap Report.events

theorem performAll_cons (call : Call) (calls : List Call) (m : Machine) :
    performAll (call :: calls) m
      = ((call.perform m).1 :: (performAll calls (call.perform m).2).1,
        (performAll calls (call.perform m).2).2) := rfl

/-- Later calls go on where the earlier ones left the machine. -/
theorem performAll_append (calls later : List Call) : ∀ m : Machine,
    performAll (calls ++ later) m
      = ((performAll calls m).1 ++ (performAll later (performAll calls m).2).1,
        (performAll later (performAll calls m).2).2) := by
  induction calls with
  | nil =>
    intro m
    rfl
  | cons call calls ih =>
    intro m
    rw [List.cons_append, performAll_cons, performAll_cons, ih, List.cons_append]

/-! ### Paths -/

/-- The machine comes from one state to another while the events happen. -/
inductive Path : Machine → List Event → Machine → Prop
  | refl (m : Machine) : Path m [] m
  | stepped {m m₁ m₂ : Machine} {es : List Event} {r : StepRecord} (h : Path m es m₁)
      (hstep : m₁.step = (.stepped r, m₂)) : Path m (es ++ [.stepped r]) m₂
  | faulted {m m₁ m₂ : Machine} {es : List Event} {f : Fault} (h : Path m es m₁)
      (hstep : m₁.step = (.faulted f, m₂)) : Path m es m₂
  | fed {m m₁ : Machine} {es : List Event} (h : Path m es m₁) (bytes : Bytes) :
      Path m (es ++ [.fed bytes]) (m₁.feed bytes)

namespace Path

variable {m m₁ m₂ : Machine} {es fs : List Event}

theorem trans (h : Path m es m₁) (h' : Path m₁ fs m₂) : Path m (es ++ fs) m₂ := by
  induction h' with
  | refl =>
    rw [List.append_nil]
    exact h
  | stepped _ hstep ih =>
    rw [← List.append_assoc]
    exact ih.stepped hstep
  | faulted _ hstep ih => exact ih.faulted hstep
  | fed _ bytes ih =>
    rw [← List.append_assoc]
    exact ih.fed bytes

theorem of_stepped {r : StepRecord} (h : m.step = (.stepped r, m₁)) :
    Path m [.stepped r] m₁ :=
  (Path.refl m).stepped h

theorem of_faulted {f : Fault} (h : m.step = (.faulted f, m₁)) : Path m [] m₁ :=
  (Path.refl m).faulted h

/-- What attempts to take a step and feeding keep, every path keeps. -/
theorem preserves {P : Machine → Prop} (hattempt : ∀ m, P m → P m.attempt.2)
    (hfeed : ∀ m bytes, P m → P (m.feed bytes)) (h : Path m es m₁) (hm : P m) : P m₁ := by
  induction h with
  | refl => exact hm
  | @stepped m₁ m₂ es r _ hstep ih =>
    have hnext := hattempt m₁ ih
    rwa [← Machine.step_snd, hstep] at hnext
  | @faulted m₁ m₂ es f _ hstep ih =>
    have hnext := hattempt m₁ ih
    rwa [← Machine.step_snd, hstep] at hnext
  | @fed m₁ es _ bytes ih => exact hfeed m₁ bytes ih

/-- No step and no feeding exchanges the program. -/
theorem program_eq (h : Path m es m₁) : m₁.program = m.program :=
  h.preserves (P := fun a => a.program = m.program) (fun a ha => a.program_attempt.trans ha)
    (fun _ _ ha => ha) rfl

/-- Every step on a path was executed by a machine for which the invariant holds. -/
theorem exists_of_mem_records {P : Machine → Prop} (hattempt : ∀ m, P m → P m.attempt.2)
    (hfeed : ∀ m bytes, P m → P (m.feed bytes)) (h : Path m es m₁) (hm : P m) :
    ∀ r ∈ records es, ∃ before after, P before ∧ before.step = (.stepped r, after) := by
  induction h with
  | refl => simp
  | @stepped m₁ m₂ es r h hstep ih =>
    intro r' hr'
    rw [records_append, records_stepped, List.mem_append, List.mem_singleton] at hr'
    rcases hr' with hold | rfl
    · exact ih r' hold
    · exact ⟨m₁, m₂, h.preserves hattempt hfeed hm, hstep⟩
  | faulted _ _ ih => exact ih
  | fed _ bytes ih =>
    intro r' hr'
    rw [records_append, records_fed, List.append_nil] at hr'
    exact ih r' hr'

end Path

/-! ### The paths of calls -/

namespace Machine

theorem path_takeSteps (n : Nat) : ∀ m : Machine,
    Path m ((takeSteps n m).1.map .stepped) (takeSteps n m).2.2 := by
  induction n with
  | zero =>
    intro m
    exact .refl m
  | succ n ih =>
    intro m
    rcases hs : m.step with ⟨_ | f | r, m'⟩
    · rw [takeSteps_of_ended hs]
      rw [step_eq_ended hs]
      exact .refl m
    · rw [takeSteps_of_faulted hs]
      exact .of_faulted hs
    · rw [takeSteps_of_stepped hs, List.map_cons, ← List.singleton_append]
      exact (Path.of_stepped hs).trans (ih m')

theorem path_run (m : Machine) (budget : Int) (signal : Signal) :
    Path m ((m.takeSteps (m.run budget signal).1.steps).1.map .stepped)
      (m.run budget signal).2 := by
  obtain ⟨n, last, hsteps, hlast, hend⟩ := m.run_runEnd budget signal
  have hpath := path_takeSteps n m
  rw [takeSteps_of_after? n hlast] at hpath
  rw [hsteps]
  generalize m.run budget signal = result at hpath hend
  cases hend with
  | exhausted => exact hpath
  | interrupted => exact hpath
  | ended => exact hpath
  | faulted f last' _ hlast => exact hpath.faulted (step_of_faulted hlast)

/-- Noting what an observer sees does not change the run, and what is noted is the path of it. -/
theorem runObservedFrom_noting {σ ε : Type} (observe : Observer σ ε) (budget : Nat) :
    ∀ (signal : Signal) (executed : Nat) (m : Machine) (es : List Event) (s : σ), ∃ fs,
      runObservedFrom observe.noting budget signal executed m (es, s)
        = ⟨(runObservedFrom observe budget signal executed m s).summary,
          (runObservedFrom observe budget signal executed m s).machine,
          (es ++ fs, (runObservedFrom observe budget signal executed m s).state),
          (runObservedFrom observe budget signal executed m s).failure⟩ ∧
      Path m fs (runObservedFrom observe budget signal executed m s).machine := by
  induction budget with
  | zero =>
    intro signal executed m es s
    refine ⟨[], ?_, .refl m⟩
    rw [List.append_nil]
    rfl
  | succ budget ih =>
    -- the notes so far are general: the induction goes on behind those of this step
    intro signal executed m es s
    rw [runObservedFrom, runObservedFrom]
    rcases signal.poll with cause | signal'
    · refine ⟨[], ?_, .refl m⟩
      rw [List.append_nil]
    · rcases hs : m.step with ⟨_ | f | r, m'⟩
      · rw [step_eq_ended hs]
        refine ⟨[], ?_, .refl m⟩
        rw [List.append_nil]
      · refine ⟨[], ?_, .of_faulted hs⟩
        rw [List.append_nil]
      · -- what the observer feeds comes right behind the step that it was shown
        have hpath : Path m [.stepped r, .fed (observe (executed + 1) r s).feed]
            (m'.feed (observe (executed + 1) r s).feed) := (Path.of_stepped hs).fed _
        dsimp only [Observer.noting]
        rcases hfail : (observe (executed + 1) r s).failure with _ | error
        · obtain ⟨fs, heq, hrest⟩ := ih signal' (executed + 1)
            (m'.feed (observe (executed + 1) r s).feed)
            (es ++ [.stepped r, .fed (observe (executed + 1) r s).feed])
            (observe (executed + 1) r s).state
          refine ⟨[.stepped r, .fed (observe (executed + 1) r s).feed] ++ fs, ?_,
            hpath.trans hrest⟩
          rw [← List.append_assoc]
          exact heq
        · exact ⟨_, rfl, hpath⟩

theorem path_runObserved {σ ε : Type} (m : Machine) (budget : Int) (signal : Signal)
    (observe : Observer σ ε) (s : σ) :
    Path m (m.runObserved budget signal observe.noting ([], s)).state.1
      (m.runObserved budget signal observe s).machine := by
  obtain ⟨fs, heq, hpath⟩ := runObservedFrom_noting observe budget.toNat signal 0 m [] s
  rw [runObserved, heq]
  exact hpath

end Machine

/-- **Every call takes the machine along the path that it reports.** -/
theorem path_perform (call : Call) (m : Machine) :
    Path m (call.perform m).1.events (call.perform m).2 := by
  cases call with
  | step =>
    rw [Call.perform]
    rcases hs : m.step with ⟨_ | f | r, m'⟩
    · rw [Machine.step_eq_ended hs]
      exact .refl m
    · exact .of_faulted hs
    · exact .of_stepped hs
  | steps limit => exact Machine.path_takeSteps limit m
  | run budget signal => exact m.path_run budget signal
  | observe budget signal observer s => exact m.path_runObserved budget signal observer s
  | feed bytes => exact (Path.refl m).fed bytes

theorem path_performAll (calls : List Call) : ∀ m : Machine,
    Path m (eventsOf (performAll calls m).1) (performAll calls m).2 := by
  induction calls with
  | nil =>
    intro m
    exact .refl m
  | cons call calls ih =>
    intro m
    exact (path_perform call m).trans (ih (call.perform m).2)

end TapeMachine
