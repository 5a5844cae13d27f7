/-
What the tool writes about a run.

Whether a run is reported, traced or quiet, it is the same run. What is written of it is said by the plan,
and the values of expressions on its final state follow, whatever came of the run.

* `valueLines`, `evalFailures`: the lines of the expressions that have a value, and the failures of those
  that have none;
* `evalAll_leaves`: what evaluating expressions leaves;
* `prefix_tap`: answering the lines of the standard input takes nothing away;
* `reporting_changes_nothing`: what the tool leaves, for every way to report a run.
-/
import TapeMachine.Proofs.Tool.Report
import TapeMachine.Tool.Execute

namespace TapeMachine.Tool

/-! ### Expressions -/

/-- The expression breaks the tool off. -/
def breaksOff (globals : Script.Globals) (expr : Bytes) : Bool :=
  match (Script.evaluate globals evalFile expr).result with
  | .error (.failed (.foreign _)) => true
  | .ok _ | .error _ => false

/-- The line of an expression that has a value. -/
def valueLine? (globals : Script.Globals) (expr : Bytes) : Option Bytes :=
  match (Script.evaluate globals evalFile expr).result with
  | .ok value => some (expr ++ utf8 " = " ++ value ++ [10])
  | .error _ => none

/-- The failure of an expression that has no value. -/
def evalFailure? (globals : Script.Globals) (expr : Bytes) : Option Failure :=
  match (Script.evaluate globals evalFile expr).result with
  | .ok _ => none
  | .error e => some (.eval expr e)

/-- The expressions that are evaluated: all of them, or those before the first one that breaks off. -/
def evaluated (globals : Script.Globals) (exprs : List Bytes) : List Bytes :=
  exprs.takeWhile fun expr => !breaksOff globals expr

/-- The lines of the expressions that have a value, in their order. -/
def valueLines (globals : Script.Globals) (exprs : List Bytes) : Bytes :=
  ((evaluated globals exprs).filterMap (valueLine? globals)).flatten

/-- The failures of the expressions that have none, in their order. -/
def evalFailures (globals : Script.Globals) (exprs : List Bytes) : List Failure :=
  (evaluated globals exprs).filterMap (evalFailure? globals)

theorem expression_cases (globals : Script.Globals) (expr : Bytes) :
    (∃ value, (Script.evaluate globals evalFile expr).result = .ok value ∧
      breaksOff globals expr = false ∧
      valueLine? globals expr = some (expr ++ utf8 " = " ++ value ++ [10]) ∧
      evalFailure? globals expr = none) ∨
    (∃ e, (Script.evaluate globals evalFile expr).result = .error e ∧
      (∀ type, e ≠ .failed (.foreign type)) ∧ breaksOff globals expr = false ∧
      valueLine? globals expr = none ∧ evalFailure? globals expr = some (.eval expr e)) ∨
    ∃ type, (Script.evaluate globals evalFile expr).result = .error (.failed (.foreign type)) ∧
      breaksOff globals expr = true := by
  rw [breaksOff, valueLine?, evalFailure?]
  rcases (Script.evaluate globals evalFile expr).result with (e | ⟨_ | type⟩) | value
  · exact .inr (.inl ⟨_, rfl, nofun, rfl, rfl, rfl⟩)
  · exact .inr (.inl ⟨_, rfl, nofun, rfl, rfl, rfl⟩)
  · exact .inr (.inr ⟨type, rfl, rfl⟩)
  · exact .inl ⟨value, rfl, rfl, rfl, rfl⟩

theorem evaluated_cons_of_not {globals : Script.Globals} {expr : Bytes}
    (h : breaksOff globals expr = false) (exprs : List Bytes) :
    evaluated globals (expr :: exprs) = expr :: evaluated globals exprs := by
  rw [evaluated, List.takeWhile_cons_of_pos (by simp [h]), evaluated]

theorem evaluated_cons_of_breaksOff {globals : Script.Globals} {expr : Bytes}
    (h : breaksOff globals expr = true) (exprs : List Bytes) :
    evaluated globals (expr :: exprs) = [] := by
  rw [evaluated, List.takeWhile_cons_of_neg (by simp [h])]

/-- The line of an expression stands in front of those of the later ones. -/
theorem valueLines_cons {globals : Script.Globals} {expr : Bytes}
    (h : breaksOff globals expr = false) (exprs : List Bytes) :
    valueLines globals (expr :: exprs)
      = (valueLine? globals expr).getD [] ++ valueLines globals exprs := by
  rw [valueLines, evaluated_cons_of_not h, List.filterMap_cons, valueLines]
  cases valueLine? globals expr <;> rfl

theorem evalFailures_cons {globals : Script.Globals} {expr : Bytes}
    (h : breaksOff globals expr = false) (exprs : List Bytes) :
    evalFailures globals (expr :: exprs)
      = (evalFailure? globals expr).toList ++ evalFailures globals exprs := by
  rw [evalFailures, evaluated_cons_of_not h, List.filterMap_cons, evalFailures]
  cases evalFailure? globals expr <;> rfl

/-- **What evaluating expressions leaves**: the lines of those that have a value and the failures of the
others, whatever failed before. -/
theorem evalAll_leaves (globals : Script.Globals) {limit : Option Nat} (exprs : List Bytes) :
    ∀ {s : Scripted} {text : Bytes}, s.output.Holds limit text → s.crash = none →
      Fits limit (text ++ valueLines globals exprs) →
      (evalAll globals exprs s).output.Holds limit (text ++ valueLines globals exprs) ∧
        (evalAll globals exprs s).failures = s.failures ++ evalFailures globals exprs ∧
        (evalAll globals exprs s).crash.isSome = exprs.any (breaksOff globals) := by
  induction exprs with
  | nil =>
    intro s text h hcrash _
    simp only [evalAll, valueLines, evalFailures, evaluated, List.takeWhile_nil, List.filterMap_nil,
      List.flatten_nil, List.append_nil, List.any_nil, hcrash]
    exact ⟨h, trivial, rfl⟩
  | cons expr exprs ih =>
    intro s text h hcrash hfits
    rcases expression_cases globals expr with ⟨value, hresult, hnot, hline, hfailure⟩ |
      ⟨e, hresult, hforeign, hnot, hline, hfailure⟩ | ⟨type, hresult, hbreaks⟩
    · rw [valueLines_cons hnot, hline, Option.getD_some, ← List.append_assoc] at hfits ⊢
      rw [evalFailures_cons hnot, hfailure, Option.toList_none, List.nil_append, List.any_cons, hnot,
        Bool.false_or, evalAll, hresult]
      exact ih (h.write hfits.of_append) hcrash hfits
    · rw [valueLines_cons hnot, hline, Option.getD_none, List.nil_append] at hfits ⊢
      rw [evalFailures_cons hnot, hfailure, Option.toList_some, ← List.append_assoc, List.any_cons,
        hnot, Bool.false_or]
      -- the failure is noted, and the expressions behind it are evaluated all the same
      rw [evalAll, hresult]
      split
      · next heq => cases heq
      · next heq => exact absurd (Except.error.inj heq) (hforeign _)
      · next heq =>
        cases heq
        exact ih h hcrash hfits
    · -- the tool breaks off, so neither this expression nor a later one leaves a line
      have hnothing := evaluated_cons_of_breaksOff hbreaks exprs
      rw [valueLines, evalFailures, hnothing, List.filterMap_nil, List.filterMap_nil,
        List.flatten_nil, List.append_nil, List.append_nil, evalAll, hresult, List.any_cons, hbreaks]
      exact ⟨h, rfl, rfl⟩

/-! ### Typed lines -/

theorem prefix_give (s : Scripted) (answer : Script.Session.Answer) :
    s.output.contents <+: (s.give answer).output.contents ∧
      (s.give answer).failures = s.failures := by
  cases answer with
  | output text => exact ⟨Sink.prefix_write s.output text, rfl⟩
  | note | crash => exact ⟨List.prefix_rfl, rfl⟩

theorem prefix_foldl_give (answers : List Script.Session.Answer) : ∀ s : Scripted,
    s.output.contents <+: (answers.foldl .give s).output.contents ∧
      (answers.foldl .give s).failures = s.failures := by
  induction answers with
  | nil => exact fun _ => ⟨List.prefix_rfl, rfl⟩
  | cons answer answers ih =>
    intro s
    obtain ⟨houtput, hfailures⟩ := prefix_give s answer
    obtain ⟨houtput', hfailures'⟩ := ih (s.give answer)
    exact ⟨houtput.trans houtput', hfailures'.trans hfailures⟩

theorem prefix_tap (globals : Script.Globals) (content : Bytes) (s : Scripted) :
    s.output.contents <+: (tap globals content s).output.contents ∧
      (tap globals content s).failures = s.failures := by
  have hlogged : ∀ logger, s.output.contents
      <+: (((Script.Session.start globals).converse content).foldl Scripted.give
        { s with logger }).output.contents ∧
      (((Script.Session.start globals).converse content).foldl Scripted.give { s with logger }).failures
        = s.failures :=
    fun logger => prefix_foldl_give _ { s with logger }
  exact hlogged _

/-! ### The tool -/

/-- What the tool leaves when it has run a program that wrote `text`, and then evaluated expressions on
its final state. -/
structure Outcome.Follows (out : Outcome) (o : Options) (text : Bytes)
    (file : Option (List Bytes × Bytes)) (failures : List RunFailure) (globals : Script.Globals) :
    Prop where
  isPrefix : text ++ valueLines globals o.evals <+: out.output.contents
  contents : o.tap = false → out.output.contents = text ++ valueLines globals o.evals
  file : out.file = file
  failures : out.failures = failures.map .run ++ evalFailures globals o.evals
  crash : o.tap = false → out.crash.isSome = o.evals.any (breaksOff globals)

/-- The log when the machine is made. -/
def madeMachine (l : Log.Logger) (program : Program) (tapeLength : Int) (input : Bytes) : Log.Logger :=
  (Session.newMachine? l program tapeLength input).2

/-- **The tool follows the run**, in whatever way it is asked to report it. -/
theorem executePlain_follows (l : Log.Logger) (env : Environment) (o : Options) (program : Program)
    (input rest : Bytes) (loader : Config.Loader) (signal : Signal) {limit : Option Nat}
    {tapeLength maxSteps cells : Int} {m : Machine} {target : TraceTarget}
    (hsettings : runSettings loader o.settings = .ok (tapeLength, maxSteps, cells))
    (hstart : Machine.new? program tapeLength input = some m)
    (htarget : traceTarget env.files o.trace = .ok target) {text : Bytes}
    {file : Option (List Bytes × Bytes)} {failures : List RunFailure} {globals : Script.Globals}
    (hglobals : Script.globals ((m.run maxSteps signal).2.snapshot 0) program = globals)
    (hleaves : (runPlain (madeMachine l program tapeLength input) m maxSteps signal
      ⟨o.quiet, target, cells⟩ { limit }).Leaves (m.run maxSteps signal).2 limit text file failures)
    (hfits : Fits limit (text ++ valueLines globals o.evals)) :
    (executePlain l env o program input rest loader signal { limit }).Follows o text file failures
      globals := by
  have hnew : Session.newMachine? l program tapeLength input
      = (some m, madeMachine l program tapeLength input) := Prod.ext hstart rfl
  simp only [executePlain, hsettings, hnew, htarget, hleaves.machine, hleaves.failures, hleaves.file,
    hglobals]
  obtain ⟨houtput, hfailures, hcrash⟩ := evalAll_leaves globals o.evals
    (s := { output := (runPlain (madeMachine l program tapeLength input) m maxSteps signal
              ⟨o.quiet, target, cells⟩ { limit }).output
            logger := (runPlain (madeMachine l program tapeLength input) m maxSteps signal
              ⟨o.quiet, target, cells⟩ { limit }).logger
            failures := failures.map .run }) hleaves.output rfl hfits
  generalize evalAll globals o.evals _ = s at *
  by_cases htap : (o.tap && s.crash.isNone) = true
  · -- the lines of the standard input are answered behind the values
    obtain ⟨hbehind, hsame⟩ := prefix_tap globals rest s
    have hasked : o.tap ≠ false := by
      intro hnot
      simp [hnot] at htap
    simp only [if_pos htap]
    exact ⟨houtput.contents ▸ hbehind, fun hnot => absurd hnot hasked, rfl, hsame.trans hfailures,
      fun hnot => absurd hnot hasked⟩
  · simp only [if_neg htap]
    exact ⟨houtput.contents ▸ List.prefix_rfl, fun _ => houtput.contents, rfl, hfailures,
      fun _ => hcrash⟩

/-- **How a run is reported never changes the run.** Let a program, an input, settings with a positive tape
length and a signal be given, and a standard output with or without a limit. There are as many steps as
the summary of the run says, and for every way to report them, quiet or not, with a trace to a file that
can be made or to the standard output or with none, if all that is due fits:
the tool executes just these steps, shows them to its observer in order, and leaves the machine and the
summary of the run that nobody watches; it fails with the error of the run, under the same span, and writes
the text and the file of its plan. The lines of the expressions that have a value on the final state follow
in their order, and the failures of those that have none, whatever the run came to. An expression that asks
the host for a value of a shape that it does not have breaks the tool off, and what is behind it is left
out. -/
theorem reporting_changes_nothing (l : Log.Logger) (env : Environment) (program : Program)
    (input rest : Bytes) (loader : Config.Loader) (request : Settings.Request) (signal : Signal)
    (limit : Option Nat) {tapeLength maxSteps cells : Int} {m : Machine}
    (hsettings : runSettings loader request = .ok (tapeLength, maxSteps, cells))
    (hstart : Machine.new? program tapeLength input = some m) :
    ∃ rs, rs.length = (m.run maxSteps signal).1.steps ∧ (m.takeSteps rs.length).1 = rs ∧
      ∀ (o : Options) (target : TraceTarget) (plan : Plan) (globals : Script.Globals),
        o.settings = request → traceTarget env.files o.trace = .ok target →
        plan = ⟨o.quiet, target, cells⟩ →
        globals = Script.globals ((m.run maxSteps signal).2.snapshot 0) program →
        Fits limit (plan.text rs (m.run maxSteps signal).1 ++ valueLines globals o.evals) →
        m.runObserved maxSteps signal (Written.observer plan) (.begin plan { limit })
            = ⟨(m.run maxSteps signal).1, (m.run maxSteps signal).2,
              (Written.observer plan).shown 1 rs (.begin plan { limit }), none⟩ ∧
          (runPlain (madeMachine l program tapeLength input) m maxSteps signal plan { limit }).Leaves
            (m.run maxSteps signal).2 limit (plan.text rs (m.run maxSteps signal).1)
            (plan.file? rs (m.run maxSteps signal).1)
            (failuresOf (madeMachine l program tapeLength input) (m.run maxSteps signal).1) ∧
          (executePlain l env o program input rest loader signal { limit }).Follows o
            (plan.text rs (m.run maxSteps signal).1) (plan.file? rs (m.run maxSteps signal).1)
            (failuresOf (madeMachine l program tapeLength input) (m.run maxSteps signal).1)
            globals := by
  refine ⟨stepsOf m maxSteps signal, length_stepsOf m maxSteps signal, ?_, ?_⟩
  · rw [length_stepsOf]
    rfl
  · rintro o target plan globals rfl htarget rfl rfl hfits
    have hleaves := runPlain_leaves (madeMachine l program tapeLength input) m maxSteps signal
      hfits.of_append
    exact ⟨observed_eq m maxSteps signal (Plan.room_of_fits hfits.of_append), hleaves,
      executePlain_follows l env o program input rest loader signal hsettings hstart htarget rfl
        hleaves hfits⟩

/-- A program that writes a byte and then runs into a fault, first quiet and with an expression on its
final state, then with a report. -/
theorem reporting_changes_nothing_up_to_fault :
    ∃ (p : Program) (m : Machine) (rs : List StepRecord) (l : Log.Logger) (env : Environment)
      (globals : Script.Globals) (o : Options),
      Program.load [43, 46, 60] = .ok p ∧ Machine.new? p 3 [] = some m ∧ rs.length = 2 ∧
      o = { quiet := true, evals := [[112, 99]], settings := ⟨3, 10, 2, none⟩ } ∧
      (executePlain l env o p [] [] ⟨.ok []⟩ .never {}).Follows o [1] none
        [.run (.fault ⟨2⟩ [120])] globals ∧
      (executePlain l env { settings := ⟨3, 10, 2, none⟩ } p [] [] ⟨.ok []⟩ .never {}).output.contents
        = textOf (openingLines ++ stepLines 2 rs
          ++ endingLines ⟨2, [1], .faulted, some (.fault ⟨2⟩)⟩) := by
  have hload : Program.load [43, 46, 60] = .ok ⟨#[.increment, .write, .moveLeft], #[0, 1, 2],
      #[none, none, none]⟩ := rfl
  obtain ⟨rs, hlength, -, hways⟩ := reporting_changes_nothing
    { threshold := .warn, spanName := fun _ => [120] }
    { mode := .production, files := {}, settingsPaths := [], network := .isolated }
    ⟨#[.increment, .write, .moveLeft], #[0, 1, 2], #[none, none, none]⟩ [] [] ⟨.ok []⟩
    ⟨3, 10, 2, none⟩ .never none (show runSettings ⟨.ok []⟩ ⟨3, 10, 2, none⟩ = .ok (3, 10, 2) from rfl)
    (show Machine.new? _ 3 [] = some _ from rfl)
  obtain ⟨-, -, hquiet⟩ := hways { quiet := true, evals := [[112, 99]], settings := ⟨3, 10, 2, none⟩ }
    .nowhere _ _ rfl rfl rfl rfl (fits_none _)
  obtain ⟨-, -, hreport⟩ := hways { settings := ⟨3, 10, 2, none⟩ }
    .nowhere _ _ rfl rfl rfl rfl (fits_none _)
  exact ⟨_, _, rs, _, _, _, _, hload, rfl, hlength, rfl, hquiet,
    (hreport.contents rfl).trans (List.append_nil _)⟩

end TapeMachine.Tool
