/-
Logged runs: a machine run under a span, with its start and its end in the log.

* `Session.newMachine?` makes a machine and logs its size;
* `Session.run` runs a machine under a new span; without an observer it takes the plain run;
* `RunError.message` is the message of a run that failed, with the span to look for in the log.

An interruption is the caller's own doing, so its message names no span.
-/
import TapeMachine.Log.Logger
import TapeMachine.Machine.Run

namespace TapeMachine.Session

open Log

/-- Why a run failed. -/
inductive RunError (ε : Type) where
  | observer (failure : ObserverFailure ε) (span : Span)
  | fault (fault : Fault) (span : Span)
  | interrupted (cause : Interruption)

/-- The message of a failed run. -/
def RunError.message {ε : Type} (text : ε → Bytes) : RunError ε → Bytes
  | observer failure span => wrapSpan span (failure.message text)
  | fault f span => wrapSpan span (utf8 ("run: " ++ f.message))
  | interrupted cause => utf8 cause.message

/-- A logged run: how it went, what it left, and the log after it. -/
structure Run (σ ε : Type) where
  summary : Summary
  machine : Machine
  state : σ
  error : Option (RunError ε)
  logger : Logger

/-- Makes a machine, if the tape length is positive. -/
def newMachine? (l : Logger) (program : Program) (tapeLength : Int) (input : Bytes) :
    Option Machine × Logger :=
  (Machine.new? program tapeLength input,
    l.write [] .debug "new engine" [("commands", .int program.length), ("tape_length", .int tapeLength),
      ("input", .int input.length)])

/-- Logs the end of a run: a warning if it failed. -/
def logHalt {ε : Type} (l : Logger) (span : Span) (text : ε → Bytes) (s : Summary)
    (error : Option (RunError ε)) : Logger :=
  let attrs := [("reason", .text (utf8 s.halt.name)), ("steps", .int s.steps),
    ("output", Value.int s.output.length)]
  match error with
  | some e => l.write span .warn "run halted" (attrs ++ [("error", .text (e.message text))])
  | none => l.write span .info "run halted" attrs

/-- The error of a run under a span: the observer's failure comes first. -/
def errorOf {ε : Type} (span : Span) (s : Summary) :
    Option (ObserverFailure ε) → Option (RunError ε)
  | some failure => some (.observer failure span)
  | none => s.stop.map fun
    | .fault f => .fault f span
    | .interrupted cause => .interrupted cause

/-- Runs a machine for at most `maxSteps` steps under a new span below `parent`. -/
def run {σ ε : Type} (l : Logger) (parent : Span) (m : Machine) (maxSteps : Int) (signal : Signal)
    (text : ε → Bytes) (observe : Option (Observer σ ε)) (s : σ) : Run σ ε :=
  let (span, l) := l.newSpan parent (utf8 "run")
  let l := l.write span .info "run started" [("commands", .int m.program.length),
    ("input", .int m.pending), ("max_steps", .int maxSteps)]
  let r : ObservedRun σ ε := match observe with
    | some observe => m.runObserved maxSteps signal observe s
    | none =>
      let (summary, m) := m.run maxSteps signal
      ⟨summary, m, s, none⟩
  let error := errorOf span r.summary r.failure
  ⟨r.summary, r.machine, r.state, error, logHalt l span text r.summary error⟩

end TapeMachine.Session
