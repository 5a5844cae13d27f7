/-
Trails: the machines on which a step is attempted.

A path tells which steps were executed. A trail tells besides on which machines a step was attempted,
executed or not, so that what one attempt does to a machine adds up along it.

* `Trail`: the machine comes from one state to another by attempts on some machines, and by feeding;
* `trail_performAll`: every sequence of calls takes the machine along a trail;
* `Trail.records_eq`: the steps executed on a trail are those of its attempts;
* `Trail.cut`: a trail can be cut in front of any of its attempts.
-/
import TapeMachine.Proofs.Machine.Fault

namespace TapeMachine

/-- The bytes that an event feeds. -/
def Event.bytes : Event → Bytes
  | stepped _ => []
  | fed bytes => bytes

/-- The bytes fed among some events, in order. -/
def fedIn (es : List Event) : Bytes :=
  es.flatMap Event.bytes

@[simp] theorem fedIn_nil : fedIn [] = [] := rfl

@[simp] theorem fedIn_append (es fs : List Event) : fedIn (es ++ fs) = fedIn es ++ fedIn fs :=
  List.flatMap_append

@[simp] theorem fedIn_fed (bytes : Bytes) : fedIn [.fed bytes] = bytes :=
  List.flatMap_singleton Event.bytes (.fed bytes)

@[simp] theorem fedIn_map_stepped (rs : List StepRecord) : fedIn (rs.map .stepped) = [] := by
  induction rs with
  | nil => rfl
  | cons r rs ih => exact ih

@[simp] theorem records_map_stepped (rs : List StepRecord) : records (rs.map .stepped) = rs := by
  rw [records, List.filterMap_map]
  exact List.filterMap_some

/-- The record of the step that an attempt executes, if it does. -/
def Machine.record? (m : Machine) : Option StepRecord :=
  match m.step with
  | (.stepped r, _) => some r
  | _ => none

/-- The events of an attempt: the executed step, or none. -/
def Machine.recorded (m : Machine) : List Event :=
  m.record?.toList.map .stepped

/-- The machine comes from one state to another: a step is attempted on the machines of the first list,
and the events are what comes of that and what is fed in between. -/
inductive Trail : Machine → List Machine → List Event → Machine → Prop
  | refl (m : Machine) : Trail m [] [] m
  | attempted {m a : Machine} {as : List Machine} {es : List Event} (h : Trail m as es a) :
      Trail m (as ++ [a]) (es ++ a.recorded) a.attempt.2
  | fed {m a : Machine} {as : List Machine} {es : List Event} (h : Trail m as es a)
      (bytes : Bytes) : Trail m as (es ++ [.fed bytes]) (a.feed bytes)

namespace Machine

variable {m m' : Machine}

theorem recorded_of_ended (h : m.step = (.ended, m')) : m.recorded = [] := by
  rw [recorded, record?, h]
  rfl

theorem recorded_of_faulted {f : Fault} (h : m.step = (.faulted f, m')) : m.recorded = [] := by
  rw [recorded, record?, h]
  rfl

theorem recorded_of_stepped {r : StepRecord} (h : m.step = (.stepped r, m')) :
    m.recorded = [.stepped r] := by
  rw [recorded, record?, h]
  rfl

/-- An attempt goes along the path of the step that it executes, if it does. -/
theorem path_attempt (m : Machine) : Path m m.recorded m.attempt.2 := by
  rw [← step_snd]
  rcases hs : m.step with ⟨_ | f | r, m'⟩
  · rw [recorded_of_ended hs, step_eq_ended hs]
    exact .refl m
  · rw [recorded_of_faulted hs]
    exact .of_faulted hs
  · rw [recorded_of_stepped hs]
    exact .of_stepped hs

end Machine

namespace Trail

variable {m m₁ m₂ a : Machine} {as bs : List Machine} {es fs : List Event}

theorem trans (h : Trail m as es m₁) (h' : Trail m₁ bs fs m₂) :
    Trail m (as ++ bs) (es ++ fs) m₂ := by
  induction h' with
  | refl =>
    rw [List.append_nil, List.append_nil]
    exact h
  | attempted _ ih =>
    rw [← List.append_assoc, ← List.append_assoc]
    exact ih.attempted
  | fed _ bytes ih =>
    rw [← List.append_assoc]
    exact ih.fed bytes

theorem single (m : Machine) : Trail m [m] m.recorded m.attempt.2 :=
  (refl m).attempted

theorem of_ended (h : m.step = (.ended, m₁)) : Trail m [m] [] m₁ := by
  have hsingle := single m
  rwa [Machine.recorded_of_ended h, ← Machine.step_snd, h] at hsingle

theorem of_faulted {f : Fault} (h : m.step = (.faulted f, m₁)) : Trail m [m] [] m₁ := by
  have hsingle := single m
  rwa [Machine.recorded_of_faulted h, ← Machine.step_snd, h] at hsingle

theorem of_stepped {r : StepRecord} (h : m.step = (.stepped r, m₁)) :
    Trail m [m] [.stepped r] m₁ := by
  have hsingle := single m
  rwa [Machine.recorded_of_stepped h, ← Machine.step_snd, h] at hsingle

theorem path (h : Trail m as es m₁) : Path m es m₁ := by
  induction h with
  | refl => exact .refl _
  | @attempted a _ _ _ ih => exact ih.trans a.path_attempt
  | fed _ bytes ih => exact ih.fed bytes

/-- **The steps executed on a trail are those of its attempts.** -/
theorem records_eq (h : Trail m as es m₁) : records es = as.filterMap Machine.record? := by
  induction h with
  | refl => rfl
  | @attempted a as es _ ih =>
    rw [records_append, ih, List.filterMap_append, Machine.recorded, records_map_stepped]
    rcases hr : a.record? with _ | r <;> simp [hr]
  | fed _ bytes ih =>
    rw [records_append, records_fed, List.append_nil]
    exact ih

/-- A trail can be cut in front of any of its attempts. -/
theorem cut {before behind : List Machine} (h : Trail m as es m₁) (ha : as = before ++ a :: behind) :
    ∃ fs gs, es = fs ++ gs ∧ Trail m before fs a ∧ Trail a (a :: behind) gs m₁ := by
  induction h generalizing behind with
  | refl => simp at ha
  | @attempted b as es h ih =>
    rcases List.eq_nil_or_concat behind with rfl | ⟨cs, c, rfl⟩
    · -- the cut is in front of the last attempt
      obtain ⟨rfl, hlast⟩ := List.append_inj' ha rfl
      rw [List.cons.injEq] at hlast
      rw [← hlast.1]
      exact ⟨es, _, rfl, h, single b⟩
    · rw [List.concat_eq_append, ← List.cons_append, ← List.append_assoc] at ha
      obtain ⟨hinit, hlast⟩ := List.append_inj' ha rfl
      rw [List.cons.injEq] at hlast
      obtain ⟨fs, gs, rfl, hbefore, hbehind⟩ := ih hinit
      refine ⟨fs, gs ++ b.recorded, List.append_assoc .., hbefore, ?_⟩
      rw [List.concat_eq_append, ← hlast.1]
      exact hbehind.attempted
  | @fed b as es _ bytes ih =>
    obtain ⟨fs, gs, rfl, hbefore, hbehind⟩ := ih ha
    exact ⟨fs, gs ++ [.fed bytes], List.append_assoc .., hbefore, hbehind.fed bytes⟩

/-- An attempt on a trail has a path before it and one behind it. -/
theorem exists_path (h : Trail m as es m₁) (ha : a ∈ as) :
    ∃ before behind, Path m before a ∧ Path a behind m₁ := by
  obtain ⟨front, rest, hsplit⟩ := List.append_of_mem ha
  obtain ⟨before, behind, -, hbefore, hbehind⟩ := h.cut hsplit
  exact ⟨before, behind, hbefore.path, hbehind.path⟩

/-- What attempts to take a step and feeding keep holds of every machine on which a step is
attempted. -/
theorem forall_attempted {P : Machine → Prop} (hattempt : ∀ m, P m → P m.attempt.2)
    (hfeed : ∀ m bytes, P m → P (m.feed bytes)) (h : Trail m as es m₁) (hm : P m) :
    ∀ a ∈ as, P a := by
  intro a ha
  obtain ⟨before, behind, hbefore, -⟩ := h.exists_path ha
  exact hbefore.preserves hattempt hfeed hm

end Trail

/-! ### The trails of calls -/

namespace Machine

section Attempts

variable {σ ε : Type} {observe : Observer σ ε} {signal signal' : Signal} {m m' : Machine}

theorem attemptedFrom_of_ended (hpoll : signal.poll = .ok signal') (h : m.step = (.ended, m'))
    (budget executed : Nat) (s : σ) :
    attemptedFrom observe (budget + 1) signal executed m s = [m] := by
  rw [attemptedFrom, hpoll, h]

theorem attemptedFrom_of_faulted {f : Fault} (hpoll : signal.poll = .ok signal')
    (h : m.step = (.faulted f, m')) (budget executed : Nat) (s : σ) :
    attemptedFrom observe (budget + 1) signal executed m s = [m] := by
  rw [attemptedFrom, hpoll, h]

/-- Behind an executed step, a run that nobody watches goes on. -/
theorem attemptedFrom_idle_of_stepped {r : StepRecord} (hpoll : signal.poll = .ok signal')
    (h : m.step = (.stepped r, m')) (budget executed : Nat) :
    attemptedFrom .idle (budget + 1) signal executed m ()
      = m :: attemptedFrom .idle budget signal' (executed + 1) m' () := by
  rw [attemptedFrom, hpoll, h]
  show m :: attemptedFrom .idle budget signal' (executed + 1) (m'.feed []) () = _
  rw [feed_nil]

end Attempts

/-- The trail of a plain run: it attempts what a run attempts that nobody watches, and its events are
the steps that its summary counts. -/
theorem trail_runFrom (budget : Nat) : ∀ (signal : Signal) (executed : Nat) (m : Machine), ∃ n,
    (runFrom budget signal executed m).1.steps = executed + n ∧
    Trail m (attemptedFrom .idle budget signal executed m ()) ((takeSteps n m).1.map .stepped)
      (runFrom budget signal executed m).2 := by
  induction budget with
  | zero =>
    intro signal executed m
    exact ⟨0, rfl, .refl m⟩
  | succ budget ih =>
    intro signal executed m
    rw [runFrom]
    rcases hpoll : signal.poll with cause | signal'
    · rw [attemptedFrom, hpoll]
      exact ⟨0, rfl, .refl m⟩
    · rcases ha : m.attempt with ⟨_ | f | ⟨c, pos⟩, m'⟩
      · rw [attemptedFrom_of_ended hpoll (step_of_ended ha)]
        exact ⟨0, rfl, .of_ended (step_of_ended ha)⟩
      · rw [attemptedFrom_of_faulted hpoll (step_of_faulted ha)]
        exact ⟨0, rfl, .of_faulted (step_of_faulted ha)⟩
      · -- the first step has the attempt in front of it, and the rest of the run its own trail
        obtain ⟨n, hsteps, htrail⟩ := ih signal' (executed + 1) m'
        refine ⟨n + 1, by rw [hsteps]; omega, ?_⟩
        rw [attemptedFrom_idle_of_stepped hpoll (step_of_stepped ha),
          takeSteps_of_stepped (step_of_stepped ha)]
        exact (Trail.of_stepped (step_of_stepped ha)).trans htrail

theorem trail_run (m : Machine) (budget : Int) (signal : Signal) :
    Trail m (attemptedFrom .idle budget.toNat signal 0 m ())
      ((m.takeSteps (m.run budget signal).1.steps).1.map .stepped) (m.run budget signal).2 := by
  obtain ⟨n, hsteps, htrail⟩ := trail_runFrom budget.toNat signal 0 m
  rw [Nat.zero_add] at hsteps
  rw [run, hsteps]
  exact htrail

theorem trail_takeSteps (n : Nat) (m : Machine) :
    Trail m (attemptedFrom .idle n .never 0 m ()) ((m.takeSteps n).1.map .stepped)
      (m.takeSteps n).2.2 := by
  have htrail := m.trail_run n .never
  -- steps in a row are a run that records its steps
  obtain ⟨hlength, hlast⟩ := takeSteps_eq_runFrom n 0 m
  rw [Nat.zero_add] at hlength
  rwa [run, Int.toNat_natCast, ← hlength, takeSteps_length, ← hlast] at htrail

/-- The trail of an observed run, with the events that are noted of it. -/
theorem trail_runObservedFrom {σ ε : Type} (observe : Observer σ ε) (budget : Nat) :
    ∀ (signal : Signal) (executed : Nat) (m : Machine) (es : List Event) (s : σ), ∃ fs,
      (runObservedFrom observe.noting budget signal executed m (es, s)).state.1 = es ++ fs ∧
      Trail m (attemptedFrom observe budget signal executed m s) fs
        (runObservedFrom observe budget signal executed m s).machine := by
  induction budget with
  | zero =>
    intro signal executed m es s
    exact ⟨[], (List.append_nil es).symm, .refl m⟩
  | succ budget ih =>
    intro signal executed m es s
    rw [runObservedFrom, runObservedFrom, attemptedFrom]
    rcases signal.poll with cause | signal'
    · exact ⟨[], (List.append_nil es).symm, .refl m⟩
    · rcases hs : m.step with ⟨_ | f | r, m'⟩
      · exact ⟨[], (List.append_nil es).symm, .of_ended hs⟩
      · exact ⟨[], (List.append_nil es).symm, .of_faulted hs⟩
      · have hfirst : Trail m [m] [.stepped r, .fed (observe (executed + 1) r s).feed]
            (m'.feed (observe (executed + 1) r s).feed) := (Trail.of_stepped hs).fed _
        dsimp only [Observer.noting]
        rcases (observe (executed + 1) r s).failure with _ | error
        · -- the rest of the run notes its events behind those of this step
          obtain ⟨fs, hnoted, hrest⟩ := ih signal' (executed + 1)
            (m'.feed (observe (executed + 1) r s).feed)
            (es ++ [.stepped r, .fed (observe (executed + 1) r s).feed])
            (observe (executed + 1) r s).state
          refine ⟨[.stepped r, .fed (observe (executed + 1) r s).feed] ++ fs, ?_, ?_⟩
          · rw [← List.append_assoc]
            exact hnoted
          · exact hfirst.trans hrest
        · exact ⟨_, rfl, hfirst⟩

end Machine

/-- **Every call takes the machine along the trail of its attempts.** -/
theorem trail_perform (call : Call) (m : Machine) :
    Trail m (call.attempted m) (call.perform m).1.events (call.perform m).2 := by
  cases call with
  | step =>
    rw [Call.perform, Call.attempted]
    rcases hs : m.step with ⟨_ | f | r, m'⟩
    · exact .of_ended hs
    · exact .of_faulted hs
    · exact .of_stepped hs
  | steps limit => exact Machine.trail_takeSteps limit m
  | run budget signal => exact m.trail_run budget signal
  | observe budget signal observer s =>
    obtain ⟨fs, hnoted, htrail⟩ :=
      Machine.trail_runObservedFrom observer budget.toNat signal 0 m [] s
    rw [show (Call.perform m (.observe budget signal observer s)).1.events = fs from hnoted]
    exact htrail
  | feed bytes => exact (Trail.refl m).fed bytes

theorem trail_performAll (calls : List Call) : ∀ m : Machine,
    Trail m (attemptedAll calls m) (eventsOf (performAll calls m).1) (performAll calls m).2 := by
  induction calls with
  | nil =>
    intro m
    exact .refl m
  | cons call calls ih =>
    intro m
    exact (trail_perform call m).trans (ih (call.perform m).2)

end TapeMachine
