/-
The tool: a program is loaded and run, shown or served.

* `Tool.Environment` is what the tool finds around it;
* `Tool.execute` does what the options ask for;
* `Tool.run` is the tool as a whole: command line in, streams and exit code out.
-/
import TapeMachine.Script.Host
import TapeMachine.Script.Session
import TapeMachine.Settings.Files
import TapeMachine.Text.Escapes
import TapeMachine.Tool.Options
import TapeMachine.Tool.Report
import TapeMachine.Web.Serve

namespace TapeMachine.Tool

/-- What can be read from the standard input; reading fails at its end if it is broken. -/
structure StandardInput where
  content : Bytes := []
  broken : Bool := false

/-- What the tool finds around it. -/
structure Environment where
  mode : Mode
  files : FileTree
  /-- Where settings files are looked for. -/
  settingsPaths : List Bytes
  network : Network

/-- Why the tool fails. -/
inductive Failure where
  | conflictingFlags (flags : String)
  | noProgram
  | file (error : FileError)
  | load (name : Bytes) (error : Unmatched)
  | input (rest : Bytes)
  | brokenInput
  | notTerminal
  | settings (failure : Settings.Failure)
  | tapeLength (length : Int)
  | serve (error : Web.ServeError)
  | run (failure : RunFailure)
  | eval (expr : Bytes) (error : Script.Error)

/-- The name of the text that `-eval` evaluates, in messages. -/
def evalFile : String := "<eval>"

namespace Failure

/-- The message of a setting that cannot be read. -/
def settingsMessage (f : Settings.Failure) : Bytes :=
  Config.Loader.lookupMessage f.path <| match f.error with
    | .load (.file e) => e.message
    | .load (.config _) => utf8 "bad settings file"
    | .notFound => utf8 Config.LookupError.notFoundMessage
    | .wrongType => utf8 "value of the wrong type"

/-- The message of a failure. -/
def message : Failure → Bytes
  | conflictingFlags flags => utf8 ("conflicting flags: " ++ flags)
  | noProgram => utf8 "no program, pass a file or -code"
  | file e => e.message
  | load name e => utf8 "load " ++ name ++ utf8 (": " ++ e.message)
  | input rest => Escapes.message rest
  | brokenInput => utf8 "broken pipe"
  | notTerminal => utf8 "viewer needs a terminal"
  | settings f => settingsMessage f
  | tapeLength length => utf8 (Machine.tapeLengthMessage length)
  | serve e => e.message
  | run f => f.message
  | eval expr e => utf8 "eval " ++ expr ++ utf8 ": " ++ e.message evalFile

/-- The message of several failures. -/
def messages (failures : List Failure) : Bytes :=
  Bytes.joinWith [10] (failures.map message)

end Failure

/-- What the tool leaves: its output, the file it made, the log, and what failed in order. -/
structure Outcome where
  output : Sink
  file : Option (List Bytes × Bytes) := none
  logger : Log.Logger
  failures : List Failure := []
  /-- Why the tool broke off, if it did. -/
  crash : Option Bytes := none

/-! ### Parts -/

/-- Loads the program that the options name. -/
def loadProgram (files : FileTree) (o : Options) : Except Failure Program := do
  if !o.code.isEmpty && !o.file.isEmpty then
    throw (.conflictingFlags "-code and a program file")
  let source ← if !o.code.isEmpty then pure o.code
    else if !o.file.isEmpty then (files.read o.file).mapError .file
    else throw .noProgram
  let name := if o.file.isEmpty then utf8 "-code" else o.file
  (Program.load source).mapError (.load name)

/-- The input of the program: the text of the options, then the standard input if it is read. -/
def readInput (o : Options) (stdin : Option StandardInput) : Except Failure Bytes := do
  let input ← (Escapes.decode o.input).mapError .input
  match stdin with
  | none => return input
  | some s => if s.broken then throw .brokenInput else return input ++ s.content

/-- The settings of a run: tape length, number of steps, cells to show. -/
def runSettings (loader : Config.Loader) (r : Settings.Request) :
    Except Settings.Failure (Int × Int × Int) := do
  return (← Settings.tapeLength loader r, ← Settings.maxSteps loader r, ← Settings.previewCells loader r)

/-- What scripts leave. -/
structure Scripted where
  output : Sink
  logger : Log.Logger
  failures : List Failure := []
  /-- Why the tool broke off, if it did. -/
  crash : Option Bytes := none

/-- Prints expressions with their values on the final state; those without a value fail. An expression that
calls for a value of a shape that the host does not have breaks the tool off. -/
def evalAll (globals : Script.Globals) : List Bytes → Scripted → Scripted
  | [], s => s
  | expr :: rest, s =>
    let e := Script.evaluate globals evalFile expr
    let s := { s with logger := e.printed.foldl .note s.logger }
    match e.result with
    | .ok value =>
      evalAll globals rest { s with output := s.output.write (expr ++ utf8 " = " ++ value ++ [10]) }
    | .error (.failed (.foreign type)) =>
      { s with crash := some (Script.Error.message evalFile (.failed (.foreign type))) }
    | .error e =>
      let attrs := [("expr", .text expr), ("error", .text (e.message evalFile))]
      evalAll globals rest { s with
        logger := s.logger.write [] .debug "eval failed" attrs
        failures := s.failures ++ [.eval expr e] }

/-- Gives an answer of a script. -/
def Scripted.give (s : Scripted) : Script.Session.Answer → Scripted
  | .output text => { s with output := s.output.write text }
  | .note text => { s with logger := s.logger.note text }
  | .crash message => { s with crash := some message }

/-- Answers the lines of the standard input on the final state. -/
def tap (globals : Script.Globals) (content : Bytes) (s : Scripted) : Scripted :=
  let names := (globals.map fun (name, _) => utf8 name).mergeSort CommandLine.bytesLe
  let log (s : Scripted) (level : Log.Level) (message : String) (attrs : List (String × Log.Value)) :=
    { s with logger := s.logger.write [] level message attrs }
  let s := log s .debug "tap final state" []
  let s := log s .info "tap: final state" [("globals", .list names)]
  let s := ((Script.Session.start globals).converse content).foldl .give s
  log s .info "tap end: final state" []

/-- Where the trace goes, made ready to be written. -/
def traceTarget (files : FileTree) (path : Bytes) : Except FileError TraceTarget :=
  if path.isEmpty then .ok .nowhere
  else if path = utf8 "-" then .ok .output
  else (files.create path).map .file

/-! ### The whole -/

/-- Runs a program, then evaluates what the options ask for on its final state, also if the run failed
or never began. `rest` is what is left of the standard input. -/
def executePlain (l : Log.Logger) (env : Environment) (o : Options) (program : Program)
    (input rest : Bytes) (loader : Config.Loader) (signal : Signal) (output : Sink) : Outcome :=
  match runSettings loader o.settings with
  | .error f => { output, logger := l, failures := [.settings f] }
  | .ok (tapeLength, maxSteps, cells) =>
    match Session.newMachine? l program tapeLength input with
    | (none, l) => { output, logger := l, failures := [.tapeLength tapeLength] }
    | (some m, l) =>
      let r : PlainRun × List Failure := match traceTarget env.files o.trace with
        | .error e => (⟨m, output, none, l, []⟩, [.file e])
        | .ok trace =>
          let r := runPlain l m maxSteps signal { quiet := o.quiet, trace, cells } output
          (r, r.failures.map .run)
      let globals := Script.globals (r.1.machine.snapshot 0) program
      let s := evalAll globals o.evals { output := r.1.output, logger := r.1.logger, failures := r.2 }
      let s := if o.tap && s.crash.isNone then tap globals rest s else s
      { output := s.output, file := r.1.file, logger := s.logger, failures := s.failures, crash := s.crash }

/-- Does what the options ask for. `stdin` is the standard input if the program reads it, and `rest` what
is left of it otherwise. -/
def execute (l : Log.Logger) (env : Environment) (o : Options) (stdin : Option StandardInput)
    (rest : Bytes) (signal : Signal) (output : Sink) : Outcome :=
  if o.tui && !o.serve.isEmpty then
    { output, logger := l, failures := [.conflictingFlags "-tui and -serve"] }
  else match (do return (← loadProgram env.files o, ← readInput o stdin) : Except Failure (Program × Bytes)) with
    | .error f => { output, logger := l, failures := [f] }
    | .ok (program, input) =>
      let (loader, l) := Settings.load l env.mode env.files env.settingsPaths
      if !o.serve.isEmpty then
        let output := output.write (utf8 "serving on http://" ++ o.serve ++ [10])
        let (error, l) := Web.serve l env.network o.serve
        { output, logger := l, failures := (error.map .serve).toList }
      else if o.tui then { output, logger := l, failures := [.notTerminal] }
      else executePlain l env o program input rest loader signal output

/-- What the tool as a whole leaves. -/
structure ToolRun where
  exitCode : Nat
  output : Bytes
  /-- The lines on the standard error stream. -/
  errors : List Bytes := []
  file : Option (List Bytes × Bytes) := none

/-- The tool as a whole. -/
def run (env : Environment) (spanName : Nat → Log.Span) (words : List Bytes) (stdin : Bytes) : ToolRun :=
  match Options.parse words with
  | (_, some (.handler _ .usage)) => { exitCode := 0, output := Options.usage }
  | (_, some e) => { exitCode := 2, output := [], errors := (e.message Refusal.message).lines }
  | (o, none) =>
    let l : Log.Logger := { threshold := o.level, spanName }
    let reads := if o.stdin then some { content := stdin } else none
    let r := execute l env o reads (if o.stdin then [] else stdin) .never {}
    let errors := match r.crash with
      | some message => (utf8 "panic: " ++ message).lines
      | none => if r.failures.isEmpty then [] else (utf8 "tapeworm: " ++ Failure.messages r.failures).lines
    { exitCode := if r.crash.isSome then 2 else if r.failures.isEmpty then 0 else 1
      output := r.output.contents
      errors := r.logger.lines.flatMap Bytes.lines ++ errors
      file := r.file }

end TapeMachine.Tool
