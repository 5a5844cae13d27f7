/-
A plain run of the tool: a report of every step, only the output, or a trace.

* `Tool.Plan` says what a run writes and where;
* `Tool.runPlain` runs a machine and writes what the plan says.

A trace that goes to the standard output takes the place of the report.
-/
import TapeMachine.Display.Tape
import TapeMachine.Files.Tree
import TapeMachine.Session.Run
import TapeMachine.Trace.Writer

namespace TapeMachine.Tool

/-- Where a trace goes. -/
inductive TraceTarget where
  | nowhere
  | output
  | file (place : List Bytes)
deriving DecidableEq, Repr

/-- What a run writes. -/
structure Plan where
  quiet : Bool
  trace : TraceTarget
  /-- The number of cells to show. -/
  cells : Int

/-- Whether a run reports its steps. -/
def Plan.reports (p : Plan) : Bool :=
  !p.quiet && p.trace ≠ .output

/-- What a run has written. -/
structure Written where
  output : Sink
  trace : Option Trace.Writer := none

namespace Written

/-- Writes a line of the report. A line that does not fit is lost. -/
def line (w : Written) (text : String) : Written :=
  { w with output := w.output.write (utf8 text ++ [10]) }

/-- The line around the steps of a report. -/
def ruler : String :=
  String.ofList (List.replicate 50 '=')

/-- Begins a report. -/
def opening (w : Written) : Written :=
  (w.line "tapeworm: running program").line ruler

/-- Reports a step. -/
def step (w : Written) (cells : Int) (n : Nat) (r : StepRecord) : Written :=
  let w := w.line (Display.stepLine n r cells)
  match Display.stepCaret? n r cells with
  | some caret => w.line caret
  | none => w

/-- Ends a report. -/
def ending (w : Written) (s : Summary) : Written :=
  ((w.line ruler).line ("halted: " ++ s.halt.name ++ " after " ++ decimal s.steps ++ " steps")).line
    ("output: " ++ Display.output s.output)

/-- The writer of the trace as it stands; one on the standard output shares what was written there. -/
def ofPlan (p : Plan) (output : Sink) : Written :=
  match p.trace with
  | .nowhere => { output }
  | .output => { output, trace := some { cells := p.cells, sink := output } }
  | .file _ => { output, trace := some { cells := p.cells, sink := {} } }

/-- Traces a step, then reports it. -/
def observer (p : Plan) : Observer Written Trace.Error := fun n r w =>
  let (failure, w) := match w.trace with
    | none => (none, w)
    | some trace =>
      let (failure, trace) := trace.step n r
      (failure, { w with trace := some trace })
  match failure with
  | some e => { state := w, failure := some e }
  | none => { state := if p.reports then w.step p.cells n r else w }

/-- Ends the trace, if there is one. -/
def endTrace (w : Written) (s : Summary) : Option Trace.Error × Written :=
  match w.trace with
  | none => (none, w)
  | some trace =>
    let (failure, trace) := trace.close s
    (failure <|> trace.finish, { w with trace := some trace })

/-- The standard output, with the trace if it went there. -/
def standardOutput (p : Plan) (w : Written) : Sink :=
  match p.trace, w.trace with
  | .output, some trace => trace.sink
  | _, _ => w.output

/-- The file of the trace, if there is one. -/
def file? (p : Plan) (w : Written) : Option (List Bytes × Bytes) :=
  match p.trace, w.trace with
  | .file place, some trace => some (place, trace.sink.contents)
  | _, _ => none

end Written

/-- Why a plain run failed. -/
inductive RunFailure where
  | run (error : Session.RunError Trace.Error)
  | trace (error : Trace.Error)
  /-- The output could not be written. -/
  | full

/-- The message of a failure. -/
def RunFailure.message : RunFailure → Bytes
  | run e => e.message (utf8 ·.message)
  | trace e => utf8 e.message
  | full => utf8 Sink.fullMessage

/-- What a plain run leaves: the machine, what it wrote, the log, and what failed in order. -/
structure PlainRun where
  machine : Machine
  output : Sink
  file : Option (List Bytes × Bytes)
  logger : Log.Logger
  failures : List RunFailure

/-- Runs a machine and writes what the plan says. -/
def runPlain (l : Log.Logger) (m : Machine) (maxSteps : Int) (signal : Signal) (p : Plan)
    (output : Sink) : PlainRun :=
  let w := Written.ofPlan p output
  let w := if p.reports then w.opening else w
  let r := Session.run l [] m maxSteps signal (utf8 ·.message) (some (Written.observer p)) w
  let failed : List RunFailure := (r.error.map .run).toList
  let finish (w : Written) (failures : List RunFailure) : PlainRun :=
    ⟨r.machine, w.standardOutput p, w.file? p, r.logger, failed ++ failures⟩
  match r.state.endTrace r.summary with
  | (some e, w) => finish w [.trace e]
  | (none, w) =>
    if p.reports then finish (w.ending r.summary) []
    else if p.trace = .output then finish w []
    else match w.output.write? r.summary.output with
      | some output => finish { w with output } []
      | none => finish w [.full]

end TapeMachine.Tool
