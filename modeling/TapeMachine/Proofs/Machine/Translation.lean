/-
Translations of machines.

A translation takes every machine to an image that attempts what the machine attempts and comes to the
image of what the machine comes to. The image may stand a number of commands further on in a longer
program, and then all that it tells of positions is further on as well.

* `State.shift`, `StepRecord.shift`, `Summary.shift`, `Report.shift`: the same, further on;
* `Machine.Translates`: a translation of the machines on which a step is attempted;
* `Translates.takeSteps`, `Translates.runFrom`: it carries over to steps in a row and to runs;
* `Translates.perform`: and so to every call but feeding and watching.
-/
import TapeMachine.Proofs.Machine.Extent
import TapeMachine.Proofs.Machine.Trail

namespace TapeMachine

/-! ### Further on in a program -/

/-- The state of a machine that stands `k` commands further on. -/
def State.shift (k : Nat) (s : State) : State :=
  { s with pc := s.pc + k }

/-- The same fault, `k` commands further on. -/
def Fault.shift (k : Nat) (f : Fault) : Fault :=
  ⟨f.position + k⟩

/-- What the same attempt comes to, `k` commands further on. -/
def Attempt.shift (k : Nat) : Attempt → Attempt
  | ended => ended
  | faulted f => faulted (f.shift k)
  | stepped command position => stepped command (position + k)

/-- The record of the same step, `k` commands further on. -/
def StepRecord.shift (k : Nat) (r : StepRecord) : StepRecord where
  before := r.before.shift k
  after := r.after.shift k
  command := r.command
  position := r.position + k

/-- What the same recorded attempt comes to, `k` commands further on. -/
def StepOutcome.shift (k : Nat) : StepOutcome → StepOutcome
  | ended => ended
  | faulted f => faulted (f.shift k)
  | stepped r => stepped (r.shift k)

/-- What stops the same run, `k` commands further on. -/
def Stop.shift (k : Nat) : Stop → Stop
  | fault f => fault (f.shift k)
  | interrupted cause => interrupted cause

/-- The summary of the same run, `k` commands further on. -/
def Summary.shift (k : Nat) (s : Summary) : Summary :=
  { s with stop := s.stop.map (Stop.shift k) }

/-- The same event, `k` commands further on. -/
def Event.shift (k : Nat) : Event → Event
  | stepped r => stepped (r.shift k)
  | fed bytes => fed bytes

/-- The report of the same call, `k` commands further on. -/
def Report.shift (k : Nat) (r : Report) : Report where
  events := r.events.map (Event.shift k)
  fault := r.fault.map (Fault.shift k)
  summary := r.summary.map (Summary.shift k)

theorem Fault.map_shift_zero (f : Option Fault) : f.map (Fault.shift 0) = f := by
  cases f <;> rfl

theorem Attempt.shift_zero (a : Attempt) : a.shift 0 = a := by
  cases a <;> rfl

theorem Summary.shift_zero (s : Summary) : s.shift 0 = s := by
  rcases s with ⟨steps, output, halt, _ | _ | _⟩ <;> rfl

theorem Event.shift_zero (e : Event) : e.shift 0 = e := by
  cases e <;> rfl

theorem Report.shift_zero (r : Report) : r.shift 0 = r := by
  have hevents : r.events.map (Event.shift 0) = r.events := List.map_id'' Event.shift_zero _
  have hsummary : r.summary.map (Summary.shift 0) = r.summary := by
    rcases r.summary with _ | s
    · rfl
    · exact congrArg some s.shift_zero
  rw [shift, hevents, Fault.map_shift_zero, hsummary]

theorem map_shift_map_stepped (k : Nat) (rs : List StepRecord) :
    (rs.map Event.stepped).map (Event.shift k) = (rs.map (StepRecord.shift k)).map .stepped := by
  rw [List.map_map, List.map_map]
  rfl

/-! ### Translations -/

/-- The image of a machine under `φ` stands `k` commands further on. What a machine attempts for which
`P` holds, its image attempts, and comes to the image of what the machine comes to. -/
structure Machine.Translates (k : Nat) (φ : Machine → Machine) (P : Machine → Prop) : Prop where
  state : ∀ m, (φ m).state = m.state.shift k
  fault : ∀ m, (φ m).fault = m.fault.map (Fault.shift k)
  attempt : ∀ m, P m → (φ m).attempt = (m.attempt.1.shift k, φ m.attempt.2)

namespace Machine.Translates

variable {k : Nat} {φ : Machine → Machine} {P : Machine → Prop} {m : Machine}

theorem step (h : Translates k φ P) (hm : P m) : (φ m).step = (m.step.1.shift k, φ m.step.2) := by
  have hφ := h.attempt m hm
  rcases ha : m.attempt with ⟨_ | f | ⟨c, pos⟩, m'⟩ <;> rw [ha] at hφ
  · rw [step_of_ended ha, step_of_ended hφ]
    rfl
  · rw [step_of_faulted ha, step_of_faulted hφ]
    rfl
  · rw [step_of_stepped ha, step_of_stepped hφ, h.state, h.state]
    rfl

theorem summarize (h : Translates k φ P) (m : Machine) (steps : Nat) (halt : HaltReason)
    (stop : Option Stop) :
    (φ m).summarize steps halt (stop.map (Stop.shift k)) = (m.summarize steps halt stop).shift k := by
  have houtput : (φ m).output = m.output := by rw [Machine.output, h.state]; rfl
  rw [Machine.summarize, houtput]
  rfl

theorem takeSteps (h : Translates k φ P) (n : Nat) : ∀ (executed : Nat) (m : Machine),
    (∀ a ∈ attemptedFrom .idle n .never executed m (), P a) →
      (φ m).takeSteps n = ((m.takeSteps n).1.map (StepRecord.shift k),
        (m.takeSteps n).2.1.map (Fault.shift k), φ (m.takeSteps n).2.2) := by
  induction n with
  | zero =>
    intro executed m _
    rfl
  | succ n ih =>
    intro executed m hP
    rcases hs : m.step with ⟨_ | f | r, m'⟩
    · rw [attemptedFrom_of_ended rfl hs] at hP
      have hφ := h.step (hP m List.mem_cons_self)
      rw [hs] at hφ
      rw [takeSteps_of_ended hs, takeSteps_of_ended hφ]
      rfl
    · rw [attemptedFrom_of_faulted rfl hs] at hP
      have hφ := h.step (hP m List.mem_cons_self)
      rw [hs] at hφ
      rw [takeSteps_of_faulted hs, takeSteps_of_faulted hφ]
      rfl
    · rw [attemptedFrom_idle_of_stepped rfl hs] at hP
      have hφ := h.step (hP m List.mem_cons_self)
      rw [hs] at hφ
      rw [takeSteps_of_stepped hs, takeSteps_of_stepped hφ,
        ih (executed + 1) m' fun a ha => hP a (List.mem_cons_of_mem m ha)]
      rfl

/-- The image of a run takes the images of its steps, and the summary is the same if the two machines
agree on why a run halts that has used up its budget. -/
theorem runFrom (h : Translates k φ P) (budget : Nat) :
    ∀ (signal : Signal) (executed : Nat) (m : Machine),
      (∀ a ∈ attemptedFrom .idle budget signal executed m (), P a) →
      ∃ n, (Machine.runFrom budget signal executed m).1.steps = executed + n ∧
        (Machine.runFrom budget signal executed (φ m)).1.steps = executed + n ∧
        (Machine.runFrom budget signal executed (φ m)).2
          = φ (Machine.runFrom budget signal executed m).2 ∧
        ((φ m).takeSteps n).1 = (m.takeSteps n).1.map (StepRecord.shift k) ∧
        ((φ (Machine.runFrom budget signal executed m).2).haltReason
            = (Machine.runFrom budget signal executed m).2.haltReason →
          (Machine.runFrom budget signal executed (φ m)).1
            = (Machine.runFrom budget signal executed m).1.shift k) := by
  induction budget with
  | zero =>
    intro signal executed m _
    refine ⟨0, rfl, rfl, rfl, rfl, ?_⟩
    intro hhalt
    -- the machine itself, and no attempt of it, is asked here why the run halts
    have hstop : (φ m).fault.map Stop.fault = (m.fault.map Stop.fault).map (Stop.shift k) := by
      rw [h.fault]
      rcases m.fault with _ | f <;> rfl
    rw [Machine.runFrom] at hhalt ⊢
    rw [Machine.runFrom, hhalt, hstop, h.summarize]
  | succ budget ih =>
    intro signal executed m hP
    rw [Machine.runFrom, Machine.runFrom]
    rcases hpoll : signal.poll with cause | signal'
    · exact ⟨0, rfl, rfl, rfl, rfl, fun _ =>
        h.summarize m executed .canceled (some (.interrupted cause))⟩
    · -- all other ends are decided by an attempt, which is the same for the two
      rcases ha : m.attempt with ⟨_ | f | ⟨c, pos⟩, m'⟩
      · rw [attemptedFrom_of_ended hpoll (step_of_ended ha)] at hP
        have hφ := h.attempt m (hP m List.mem_cons_self)
        rw [ha] at hφ
        rw [hφ]
        exact ⟨0, rfl, rfl, rfl, rfl, fun _ => h.summarize m' executed .programEnded none⟩
      · rw [attemptedFrom_of_faulted hpoll (step_of_faulted ha)] at hP
        have hφ := h.attempt m (hP m List.mem_cons_self)
        rw [ha] at hφ
        rw [hφ]
        exact ⟨0, rfl, rfl, rfl, rfl, fun _ =>
          h.summarize m' executed .faulted (some (.fault f))⟩
      · rw [attemptedFrom_idle_of_stepped hpoll (step_of_stepped ha)] at hP
        have hφ := h.attempt m (hP m List.mem_cons_self)
        have hstep := h.step (hP m List.mem_cons_self)
        rw [ha] at hφ
        rw [step_of_stepped ha] at hstep
        obtain ⟨n, hsteps, hsteps', hlast, htaken, hsummary⟩ := ih signal' (executed + 1) m'
          (fun a ha => hP a (List.mem_cons_of_mem m ha))
        rw [hφ]
        have hsum : executed + 1 + n = executed + (n + 1) := by omega
        refine ⟨n + 1, hsteps.trans hsum, hsteps'.trans hsum, hlast, ?_, hsummary⟩
        rw [takeSteps_of_stepped (step_of_stepped ha), takeSteps_of_stepped hstep]
        exact congrArg (_ :: ·) htaken

end Machine.Translates

/-! ### Calls -/

/-- Whether a call feeds the machine. -/
def Call.isFeed : Call → Bool
  | feed _ => true
  | step | steps _ | run _ _ | observe .. => false

/-- A call that neither feeds nor is watched reports steps only. -/
theorem exists_events_eq {call : Call} (hcall : call.Unobserved) (hfeed : call.isFeed = false)
    (m : Machine) : ∃ rs, (call.perform m).1.events = List.map .stepped rs := by
  cases call with
  | step =>
    rw [Call.perform]
    rcases m.step with ⟨_ | f | r, m'⟩
    · exact ⟨[], rfl⟩
    · exact ⟨[], rfl⟩
    · exact ⟨[r], rfl⟩
  | steps limit => exact ⟨_, rfl⟩
  | run budget signal => exact ⟨_, rfl⟩
  | observe budget signal observer s => exact hcall.elim
  | feed bytes => cases hfeed

/-- **A translation carries over to calls**, feeding and watching apart. The reports are the same if the
two machines agree, after the call, on why a run halts that has used up its budget. -/
theorem Machine.Translates.perform {k : Nat} {φ : Machine → Machine} {P : Machine → Prop}
    (h : Translates k φ P) {call : Call} (hcall : call.Unobserved) (hfeed : call.isFeed = false)
    {m : Machine} (hP : ∀ a ∈ call.attempted m, P a) :
    (call.perform (φ m)).2 = φ (call.perform m).2 ∧
      (call.perform (φ m)).1.events = (call.perform m).1.events.map (Event.shift k) ∧
      ((φ (call.perform m).2).haltReason = (call.perform m).2.haltReason →
        (call.perform (φ m)).1 = (call.perform m).1.shift k) := by
  cases call with
  | step =>
    have hstep := h.step (hP m List.mem_cons_self)
    rw [Call.perform, Call.perform, hstep]
    rcases m.step with ⟨_ | f | r, m'⟩ <;> exact ⟨rfl, rfl, fun _ => rfl⟩
  | steps limit =>
    have hsteps := h.takeSteps limit 0 m hP
    rw [Call.perform, Call.perform, hsteps]
    have hevents := (map_shift_map_stepped k (m.takeSteps limit).1).symm
    refine ⟨rfl, hevents, fun _ => ?_⟩
    rw [Report.shift, ← hevents]
    rfl
  | run budget signal =>
    obtain ⟨n, hsteps, hsteps', hlast, htaken, hsummary⟩ := h.runFrom budget.toNat signal 0 m hP
    rw [Nat.zero_add] at hsteps hsteps'
    have hevents : (((φ m).takeSteps ((φ m).run budget signal).1.steps).1.map Event.stepped)
        = ((m.takeSteps (m.run budget signal).1.steps).1.map Event.stepped).map (Event.shift k) := by
      rw [map_shift_map_stepped, Machine.run, Machine.run, hsteps, hsteps', htaken]
    refine ⟨hlast, hevents, fun hhalt => ?_⟩
    have hsame : ((φ m).run budget signal).1 = (m.run budget signal).1.shift k := hsummary hhalt
    show (⟨((φ m).takeSteps ((φ m).run budget signal).1.steps).1.map Event.stepped, none,
      some ((φ m).run budget signal).1⟩ : Report) = _
    rw [hevents, hsame]
    rfl
  | observe budget signal observer s => exact hcall.elim
  | feed bytes => cases hfeed

end TapeMachine
