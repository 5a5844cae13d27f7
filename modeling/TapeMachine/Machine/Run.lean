/-
Runs: steps in a row under a budget, a signal and an observer.

* `Machine.run` steps until the budget is used up, the program ends or faults, or the signal is
  raised; it copies no state;
* `Machine.runObserved` does the same and shows each step to an observer, which may feed the machine
  and may stop the run;
* `Summary` tells how a run went.

The signal is asked once before each step.
-/
import TapeMachine.Machine.Basic

namespace TapeMachine

/-- Why a run is interrupted from outside. -/
inductive Interruption where
  | canceled
  | deadlineExceeded
deriving DecidableEq, Repr

/-- The message of an interruption. -/
def Interruption.message : Interruption → String
  | canceled => "context canceled"
  | deadlineExceeded => "context deadline exceeded"

/-- A signal stays quiet for some number of polls and is raised from then on, or is never raised. -/
inductive Signal where
  | never
  | after (polls : Nat) (cause : Interruption)
deriving DecidableEq, Repr

/-- Asks a signal once: its cause if it is raised, else the signal for the next poll. -/
def Signal.poll : Signal → Except Interruption Signal
  | never => .ok never
  | after 0 cause => .error cause
  | after (n + 1) cause => .ok (after n cause)

/-- Why a run halted. -/
inductive HaltReason where
  | programEnded
  | budgetExhausted
  | faulted
  | canceled
deriving DecidableEq, Repr

namespace HaltReason

/-- The name of a reason. -/
def name : HaltReason → String
  | programEnded => "program ended"
  | budgetExhausted => "step budget exhausted"
  | faulted => "faulted"
  | canceled => "canceled"

/-- The number of a reason. -/
def code : HaltReason → Nat
  | programEnded => 0
  | budgetExhausted => 1
  | faulted => 2
  | canceled => 3

/-- The reasons by number. -/
def ofCode? : Int → Option HaltReason
  | 0 => some programEnded
  | 1 => some budgetExhausted
  | 2 => some faulted
  | 3 => some canceled
  | _ => none

/-- The name of the reason with a number. -/
def nameOfCode (code : Int) : String :=
  ((ofCode? code).map name).getD "unknown"

end HaltReason

/-- What stopped a run before its end: a fault or an interruption. -/
inductive Stop where
  | fault (fault : Fault)
  | interrupted (cause : Interruption)
deriving DecidableEq, Repr

/-- The message of a stop. -/
def Stop.message : Stop → String
  | fault f => f.message
  | interrupted cause => cause.message

/-- How a run went. -/
structure Summary where
  steps : Nat
  output : Bytes
  halt : HaltReason
  stop : Option Stop
deriving DecidableEq, Repr

/-- What an observer with state `σ` does after a step: it may feed the machine, and it may fail, which
stops the run. -/
structure Reaction (σ ε : Type) where
  state : σ
  feed : Bytes := []
  failure : Option ε := none

/-- An observer sees the number of each step, counted from 1, and its record. -/
abbrev Observer (σ ε : Type) := Nat → StepRecord → σ → Reaction σ ε

/-- The failure of an observer at a step. -/
structure ObserverFailure (ε : Type) where
  step : Nat
  error : ε
deriving DecidableEq

/-- The message of an observer's failure. -/
def ObserverFailure.message {ε : Type} (text : ε → Bytes) (f : ObserverFailure ε) : Bytes :=
  utf8 ("observe step " ++ decimal f.step ++ ": ") ++ text f.error

/-- What an observed run leaves. -/
structure ObservedRun (σ ε : Type) where
  summary : Summary
  machine : Machine
  state : σ
  failure : Option (ObserverFailure ε)

namespace Machine

/-- Why a run halts that is over because its budget is used up. -/
def haltReason (m : Machine) : HaltReason :=
  if m.fault.isSome then .faulted
  else if m.program.length ≤ m.state.pc then .programEnded
  else .budgetExhausted

/-- The summary of a run of `steps` steps that left the machine `m`. -/
def summarize (m : Machine) (steps : Nat) (halt : HaltReason) (stop : Option Stop) : Summary where
  steps
  output := m.output
  halt
  stop

/-- Goes on with a run after `executed` steps, for at most `budget` more. -/
def runFrom : Nat → Signal → Nat → Machine → Summary × Machine
  | 0, _, executed, m => (m.summarize executed m.haltReason (m.fault.map .fault), m)
  | budget + 1, signal, executed, m =>
    match signal.poll with
    | .error cause => (m.summarize executed .canceled (some (.interrupted cause)), m)
    | .ok signal =>
      match m.attempt with
      | (.ended, m) => (m.summarize executed .programEnded none, m)
      | (.faulted f, m) => (m.summarize executed .faulted (some (.fault f)), m)
      | (.stepped _ _, m) => runFrom budget signal (executed + 1) m

/-- Takes at most `budget` steps. -/
def run (m : Machine) (budget : Int) (signal : Signal := .never) : Summary × Machine :=
  runFrom budget.toNat signal 0 m

/-- Goes on with an observed run after `executed` steps, for at most `budget` more. -/
def runObservedFrom {σ ε : Type} (observe : Observer σ ε) :
    Nat → Signal → Nat → Machine → σ → ObservedRun σ ε
  | 0, _, executed, m, s =>
    ⟨m.summarize executed m.haltReason (m.fault.map .fault), m, s, none⟩
  | budget + 1, signal, executed, m, s =>
    match signal.poll with
    | .error cause => ⟨m.summarize executed .canceled (some (.interrupted cause)), m, s, none⟩
    | .ok signal =>
      match m.step with
      | (.ended, m) => ⟨m.summarize executed .programEnded none, m, s, none⟩
      | (.faulted f, m) => ⟨m.summarize executed .faulted (some (.fault f)), m, s, none⟩
      | (.stepped record, m) =>
        let executed := executed + 1
        let reaction := observe executed record s
        let m := m.feed reaction.feed
        match reaction.failure with
        | some error =>
          let halt := if m.done then m.haltReason else .canceled
          ⟨m.summarize executed halt none, m, reaction.state, some ⟨executed, error⟩⟩
        | none => runObservedFrom observe budget signal executed m reaction.state

/-- Takes at most `budget` steps and shows each to the observer. -/
def runObserved {σ ε : Type} (m : Machine) (budget : Int) (signal : Signal) (observe : Observer σ ε)
    (s : σ) : ObservedRun σ ε :=
  runObservedFrom observe budget.toNat signal 0 m s

end Machine

/-- A copy of what a machine shows, for displays. -/
structure Snapshot where
  state : State
  steps : Nat
  done : Bool
  fault : Option Fault
deriving DecidableEq

/-- The current state with the first `cells` cells of the tape; zero and negative numbers give the
whole tape. -/
def Machine.snapshot (m : Machine) (cells : Int) : Snapshot where
  state := { m.state with
    tape := if 0 < cells ∧ cells < m.state.tape.length then m.state.tape.first cells.toNat
      else m.state.tape }
  steps := m.steps
  done := m.done
  fault := m.fault

end TapeMachine
