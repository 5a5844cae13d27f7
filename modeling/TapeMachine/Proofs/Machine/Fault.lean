/-
Faults.

A machine faults when a step is attempted that would move the pointer below cell 0. Nothing else
happens in that step, and nothing but feeding happens in any call from then on.

* `Machine.AtEdge`: the next step would move the pointer below cell 0;
* `attemptedAll`: the machines on which some calls attempt a step, whether it is executed or not;
* `fault_performAll`: a fault comes from such an attempt, and only from one;
* `performAll_of_fault`: what calls do on a machine with a fault, and what they report;
* `fault_is_atomic_and_final`: all of this for every machine that calls lead to.
-/
import TapeMachine.Proofs.Machine.Cut
import TapeMachine.Proofs.Machine.Watch

namespace TapeMachine

/-! ### Attempts of calls -/

/-- An observer that does nothing. -/
def Observer.idle : Observer Unit Empty :=
  fun _ _ s => { state := s }

theorem Observer.quiet_idle : Observer.idle.Quiet :=
  fun _ _ _ => ⟨rfl, rfl⟩

/-- The machines on which a watched run attempts a step. -/
def Machine.attemptedFrom {σ ε : Type} (observe : Observer σ ε) :
    Nat → Signal → Nat → Machine → σ → List Machine
  | 0, _, _, _, _ => []
  | budget + 1, signal, executed, m, s =>
    match signal.poll with
    | .error _ => []
    | .ok signal =>
      m :: match m.step with
        | (.stepped record, m) =>
          let reaction := observe (executed + 1) record s
          match reaction.failure with
          | some _ => []
          | none =>
            attemptedFrom observe budget signal (executed + 1) (m.feed reaction.feed) reaction.state
        | _ => []

/-- The machines on which a call attempts a step. Plain runs and steps in a row attempt what a run
attempts that nobody watches (`runFrom_snd_eq_idle`). -/
def Call.attempted (m : Machine) : Call → List Machine
  | step => [m]
  | steps limit => Machine.attemptedFrom .idle limit .never 0 m ()
  | run budget signal => Machine.attemptedFrom .idle budget.toNat signal 0 m ()
  | observe budget signal observer s => Machine.attemptedFrom observer budget.toNat signal 0 m s
  | feed _ => []

/-- The machines on which calls that follow each other attempt a step. -/
def attemptedAll : List Call → Machine → List Machine
  | [], _ => []
  | call :: calls, m => call.attempted m ++ attemptedAll calls (call.perform m).2

/-! ### Where faults come from -/

namespace Machine

/-- The command at the program counter would move the pointer below cell 0. -/
def AtEdge (m : Machine) : Prop :=
  m.program.at? m.state.pc = some .moveLeft ∧ m.state.pointer = 0

variable {m m' : Machine}

theorem not_atEdge {c : Command} (hc : m.program.at? m.state.pc = some c)
    (hu : underflows c m.state = false) : ¬ m.AtEdge := by
  rintro ⟨hleft, hpointer⟩
  rw [hc, Option.some_inj] at hleft
  simp [underflows, hleft, hpointer] at hu

/-- **An attempt on the edge faults**, and no other does. -/
theorem fault_attempt (m : Machine) :
    m.attempt.2.fault.isSome ↔ m.fault.isSome ∨ m.AtEdge := by
  rcases m.attempt_cases with ⟨f, hf, ha⟩ | ⟨hf, hc, ha⟩ | ⟨hf, hc, hp, ha⟩ | ⟨c, hf, hc, hu, ha⟩
  · simp [ha, hf]
  · simp [ha, hf, AtEdge, hc]
  · simp [ha, AtEdge, hc, hp]
  · simp [ha, hf, not_atEdge hc hu]

theorem fault_runObservedFrom {σ ε : Type} (observe : Observer σ ε) (budget : Nat) :
    ∀ (signal : Signal) (executed : Nat) (m : Machine) (s : σ),
      (runObservedFrom observe budget signal executed m s).machine.fault.isSome
        ↔ m.fault.isSome ∨ ∃ a ∈ attemptedFrom observe budget signal executed m s, a.AtEdge := by
  induction budget with
  | zero =>
    intro signal executed m s
    simp [runObservedFrom, attemptedFrom]
  | succ budget ih =>
    intro signal executed m s
    rw [runObservedFrom, attemptedFrom]
    rcases signal.poll with cause | signal'
    · simp
    · -- what the attempt makes of the fault, before the run goes on
      have hattempt := m.fault_attempt
      rw [← step_snd] at hattempt
      rcases hs : m.step with ⟨_ | f | r, m'⟩ <;> rw [hs] at hattempt
      · simpa using hattempt
      · simpa using hattempt
      · dsimp only at hattempt ⊢
        rcases (observe (executed + 1) r s).failure with _ | error
        · simp only [ih, List.mem_cons, or_and_right, exists_or, exists_eq_left]
          rw [← or_assoc, ← hattempt]
          rfl
        · simpa [feed] using hattempt

theorem runFrom_snd_eq_idle (budget : Nat) (signal : Signal) (m : Machine) :
    (runFrom budget signal 0 m).2 = (runObservedFrom .idle budget signal 0 m ()).machine := by
  obtain ⟨_, -, -, hrun⟩ := runObservedFrom_of_quiet Observer.quiet_idle budget signal 0 m ()
  rw [hrun]

end Machine

theorem fault_perform (call : Call) (m : Machine) :
    (call.perform m).2.fault.isSome ↔ m.fault.isSome ∨ ∃ a ∈ call.attempted m, a.AtEdge := by
  cases call with
  | step =>
    have hattempt := m.fault_attempt
    rw [← Machine.step_snd] at hattempt
    rw [Call.perform, Call.attempted]
    rcases hs : m.step with ⟨_ | f | r, m'⟩ <;> rw [hs] at hattempt <;> simpa using hattempt
  | steps limit =>
    have hlast : (Call.perform m (.steps limit)).2 = (Machine.runFrom limit .never 0 m).2 :=
      (Machine.takeSteps_eq_runFrom limit 0 m).2
    rw [hlast, Machine.runFrom_snd_eq_idle, Machine.fault_runObservedFrom, Call.attempted]
  | run budget signal =>
    have hlast : (Call.perform m (.run budget signal)).2
        = (Machine.runFrom budget.toNat signal 0 m).2 := rfl
    rw [hlast, Machine.runFrom_snd_eq_idle, Machine.fault_runObservedFrom, Call.attempted]
  | observe budget signal observer s =>
    exact Machine.fault_runObservedFrom observer budget.toNat signal 0 m s
  | feed bytes => simp [Call.perform, Call.attempted, Machine.feed]

/-- **A fault comes from an attempt on the edge**, and only from one. -/
theorem fault_performAll (calls : List Call) : ∀ m : Machine,
    (performAll calls m).2.fault.isSome
      ↔ m.fault.isSome ∨ ∃ a ∈ attemptedAll calls m, a.AtEdge := by
  induction calls with
  | nil =>
    intro m
    simp [performAll, attemptedAll]
  | cons call calls ih =>
    intro m
    rw [performAll_cons, ih, fault_perform, attemptedAll]
    simp only [List.mem_append, or_and_right, exists_or, or_assoc]

/-- The fault of a machine, if it has one, names the command at the program counter, which would move
the pointer below cell 0. -/
structure Machine.FaultOnEdge (p : Program) (m : Machine) : Prop where
  program : m.program = p
  fault : ∀ f, m.fault = some f → f.position = m.state.pc ∧ m.AtEdge

namespace Machine

theorem FaultOnEdge.attempt {p : Program} (m : Machine) (h : FaultOnEdge p m) :
    FaultOnEdge p m.attempt.2 := by
  rcases m.attempt_cases with ⟨f, -, ha⟩ | ⟨-, -, ha⟩ | ⟨-, hc, hp, ha⟩ | ⟨c, -, -, -, ha⟩
  · rwa [ha]
  · rwa [ha]
  · rw [ha]
    -- the program counter stays on the command that faulted
    refine ⟨h.program, fun f hf => ?_⟩
    rw [Option.some_inj] at hf
    exact ⟨hf ▸ rfl, hc, hp⟩
  · rw [ha]
    exact ⟨h.program, fun f hf => nomatch hf⟩

theorem FaultOnEdge.feed {p : Program} (m : Machine) (bytes : Bytes) (h : FaultOnEdge p m) :
    FaultOnEdge p (m.feed bytes) :=
  ⟨h.program, h.fault⟩

/-! ### Calls on a machine with a fault -/

theorem runObservedFrom_of_fault {σ ε : Type} (observe : Observer σ ε) {m : Machine} {f : Fault}
    (h : m.fault = some f) {signal signal' : Signal} (hpoll : signal.poll = .ok signal')
    (budget executed : Nat) (s : σ) : runObservedFrom observe budget signal executed m s
      = ⟨m.summarize executed .faulted (some (.fault f)), m, s, none⟩ := by
  rcases budget with _ | budget
  · rw [runObservedFrom, haltReason_of_fault h, h, Option.map_some]
  · rw [runObservedFrom, hpoll, step_of_faulted (attempt_of_fault h)]

end Machine

/-- The signal is raised, so that the next poll interrupts a run. -/
def Signal.Raised (signal : Signal) : Prop :=
  ∃ cause, signal = .after 0 cause

theorem Signal.exists_poll {signal : Signal} (h : ¬ signal.Raised) :
    ∃ signal', signal.poll = .ok signal' := by
  rcases signal with _ | ⟨_ | n, cause⟩
  · exact ⟨_, rfl⟩
  · exact absurd ⟨cause, rfl⟩ h
  · exact ⟨_, rfl⟩

/-- The calls that no signal interrupts. -/
def Call.Uninterrupted : Call → Prop
  | run _ signal => ¬ signal.Raised
  | observe _ signal _ _ => ¬ signal.Raised
  | step | steps _ | feed _ => True

/-- The bytes that a call feeds, apart from what an observer feeds. -/
def Call.fed : Call → Bytes
  | feed bytes => bytes
  | step | steps _ | run _ _ | observe .. => []

/-- What a call reports of a machine with the fault `f` and some output: the fault, unless it feeds or
asks for no step at all. -/
def Call.reportOfFault (f : Fault) (output : Bytes) : Call → Report
  | step => { fault := some f }
  | steps 0 => {}
  | steps (_ + 1) => { fault := some f }
  | run _ _ => { summary := some ⟨0, output, .faulted, some (.fault f)⟩ }
  | observe .. => { summary := some ⟨0, output, .faulted, some (.fault f)⟩ }
  | feed bytes => { events := [.fed bytes] }

theorem perform_of_fault {m : Machine} {f : Fault} (h : m.fault = some f) {call : Call}
    (hcall : call.Uninterrupted) :
    call.perform m = (call.reportOfFault f m.output, m.feed call.fed) := by
  cases call with
  | step =>
    rw [Call.perform, Machine.step_of_faulted (Machine.attempt_of_fault h), Call.fed,
      Machine.feed_nil]
    rfl
  | steps limit =>
    rw [Call.perform, Call.fed, Machine.feed_nil]
    rcases limit with _ | limit
    · rfl
    · rw [Machine.takeSteps_of_fault h]
      rfl
  | run budget signal =>
    obtain ⟨signal', hpoll⟩ := Signal.exists_poll hcall
    rw [Call.perform, Machine.run, Machine.runFrom_of_fault h hpoll, Call.fed, Machine.feed_nil]
    rfl
  | observe budget signal observer s =>
    obtain ⟨signal', hpoll⟩ := Signal.exists_poll hcall
    -- the observer that notes what it is shown has noted nothing
    rw [Call.perform, Machine.runObserved, Machine.runObserved,
      Machine.runObservedFrom_of_fault observer h hpoll,
      Machine.runObservedFrom_of_fault observer.noting h hpoll, Call.fed, Machine.feed_nil]
    rfl
  | feed bytes => rfl

/-- **Calls on a machine with a fault** report the fault and do nothing but feed. -/
theorem performAll_of_fault {f : Fault} {calls : List Call}
    (hcalls : ∀ call ∈ calls, call.Uninterrupted) : ∀ {m : Machine}, m.fault = some f →
      performAll calls m
        = (calls.map (Call.reportOfFault f m.output), m.feed (calls.flatMap Call.fed)) := by
  induction calls with
  | nil =>
    intro m _
    rw [List.flatMap_nil, Machine.feed_nil]
    rfl
  | cons call calls ih =>
    intro m h
    -- feeding is all that the first call does, so the calls after it find the same fault
    have hrest := ih (fun c hc => hcalls c (List.mem_cons_of_mem call hc))
      (show (m.feed call.fed).fault = some f from h)
    rw [performAll_cons, perform_of_fault h (hcalls call List.mem_cons_self), hrest,
      List.flatMap_cons, Machine.feed, Machine.feed, Machine.feed, List.append_assoc]
    rfl

/-- **A fault is atomic and final.** Of every machine that calls lead to from the start of a program:
it has a fault iff a step was attempted on a move to the left with the pointer on cell 0; a step that
faults, recorded or not, changes nothing else; and the fault, if there is one, is at the program counter,
on such a move.
From then on, whatever calls are made that no signal interrupts, each one that asks for a step reports
the same fault and executes none, for every budget, no observer is shown anything, and nothing but the
input queue changes. -/
theorem fault_is_atomic_and_final {p : Program} {length : Int} {input : Bytes} {m₀ m : Machine}
    (hstart : Machine.new? p length input = some m₀) (calls : List Call)
    (hm : (performAll calls m₀).2 = m) :
    (m.fault.isSome ↔ ∃ a ∈ attemptedAll calls m₀, a.AtEdge) ∧
    (∀ f m', m.attempt = (.faulted f, m') ∨ m.step = (.faulted f, m') →
      m' = { m with fault := some f }) ∧
    ∀ f, m.fault = some f →
      f.position = m.state.pc ∧ p.at? m.state.pc = some .moveLeft ∧ m.state.pointer = 0 ∧
      (∀ later : List Call, (∀ call ∈ later, call.Uninterrupted) →
        performAll later m = (later.map (Call.reportOfFault f m.output),
          { m with input := m.input ++ later.flatMap Call.fed })) ∧
      ∀ (σ ε : Type) (observe : Observer σ ε) (s : σ) (budget : Int) (signal : Signal),
        ¬ signal.Raised → m.runObserved budget signal observe s
          = ⟨⟨0, m.output, .faulted, some (.fault f)⟩, m, s, none⟩ := by
  have hnew : m₀ = .start p length.toNat input := Machine.eq_start_of_new? hstart
  have hedge : m.FaultOnEdge p := by
    rw [← hm]
    -- a fault has its place at the start of the program and behind every attempt
    refine (path_performAll calls m₀).preserves Machine.FaultOnEdge.attempt
      Machine.FaultOnEdge.feed ?_
    rw [hnew]
    exact ⟨rfl, fun f hf => nomatch hf⟩
  refine ⟨?_, ?_, ?_⟩
  · rw [← hm, fault_performAll, hnew]
    simp [Machine.start]
  · rintro f m' (ha | hs)
    · exact Machine.of_step_eq_faulted (Machine.step_of_faulted ha)
    · exact Machine.of_step_eq_faulted hs
  · intro f hf
    obtain ⟨hposition, hleft, hpointer⟩ := hedge.fault f hf
    rw [hedge.program] at hleft
    refine ⟨hposition, hleft, hpointer, fun later hlater => performAll_of_fault hlater hf, ?_⟩
    intro σ ε observe s budget signal hsignal
    obtain ⟨signal', hpoll⟩ := Signal.exists_poll hsignal
    exact Machine.runObservedFrom_of_fault observe hf hpoll budget.toNat 0 s

/-- A program that faults in a loop, and calls on it before and after. -/
theorem fault_is_atomic_and_final_in_loop :
    ∃ p m₀ m, Program.load [43, 91, 60, 93] = .ok p ∧ Machine.new? p 1 [] = some m₀ ∧
      (performAll [.step, .run 10 .never] m₀).2 = m ∧ m.fault = some ⟨2⟩ ∧
      (∃ a ∈ attemptedAll [.step, .run 10 .never] m₀, a.AtEdge) ∧
      performAll [.feed [7], .step, .steps 3, .run (-1) (.after 1 .canceled)] m
        = ([{ events := [.fed [7]] }, { fault := some ⟨2⟩ }, { fault := some ⟨2⟩ },
            { summary := some ⟨0, [], .faulted, some (.fault ⟨2⟩)⟩ }],
          { m with input := [7] }) := by
  have hload : Program.load [43, 91, 60, 93] = .ok ⟨#[.increment, .loopStart, .moveLeft, .loopEnd],
      #[0, 1, 2, 3], #[none, some 3, none, some 1]⟩ := rfl
  obtain ⟨hiff, -, hfinal⟩ := fault_is_atomic_and_final
    (show Machine.new? ⟨#[.increment, .loopStart, .moveLeft, .loopEnd], #[0, 1, 2, 3],
      #[none, some 3, none, some 1]⟩ 1 [] = some _ from rfl) [.step, .run 10 .never] rfl
  obtain ⟨-, -, -, hlater, -⟩ := hfinal ⟨2⟩ rfl
  have hcalls : ∀ call ∈ [Call.feed [7], .step, .steps 3, .run (-1) (.after 1 .canceled)],
      call.Uninterrupted := by
    simp [Call.Uninterrupted, Signal.Raised]
  exact ⟨_, _, _, hload, rfl, rfl, rfl, hiff.mp rfl, hlater _ hcalls⟩

end TapeMachine
