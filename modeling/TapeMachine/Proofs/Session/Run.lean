/-
What a logged run tells.

A run ends in one of three ways, if its observer does not fail: regularly, by a fault, or by an
interruption. The summary says which, the error is made from it, and the last entry in the log is made from
both.

* `Summary.Outcome`: the three ways, by what the summary and the machine say;
* `outcome_run` and `outcome_runObserved`: every run without a failure ends in one of them;
* `written_run`: what a run adds to the log;
* `error_summary_and_log_agree`: how the error, the summary and the log of a run go together.
-/
import TapeMachine.Log.SpanName
import TapeMachine.Proofs.Machine.Summary
import TapeMachine.Session.Run

namespace TapeMachine

/-- How a run ended whose observer did not fail, by its summary and the machine that it left. -/
inductive Summary.Outcome (signal : Signal) (last : Machine) (summary : Summary) : Prop
  | regular (halt : summary.halt = .programEnded ∨ summary.halt = .budgetExhausted)
      (stop : summary.stop = none)
  | faulted (f : Fault) (halt : summary.halt = .faulted) (stop : summary.stop = some (.fault f))
      (fault : last.fault = some f)
  | interrupted (cause : Interruption) (halt : summary.halt = .canceled)
      (stop : summary.stop = some (.interrupted cause)) (raised : signal = .after summary.steps cause)

namespace Machine

open Summary (Outcome)

variable {signal : Signal} {last : Machine} {budget n : Nat}

theorem RunEnd.outcome {result : Summary × Machine} (h : RunEnd budget signal 0 n last result) :
    Outcome signal result.2 result.1 := by
  cases h with
  | exhausted h =>
    -- the reason is looked up behind the loop, so the machine may be at its end or have a fault
    rcases last.haltReason_cases with ⟨hreason, hf, -⟩ | ⟨f, hreason, hf⟩ | ⟨hreason, hf, -⟩
    · exact .regular (.inl hreason) (by rw [hf]; rfl)
    · exact .faulted f hreason (by rw [hf]; rfl) hf
    · exact .regular (.inr hreason) (by rw [hf]; rfl)
  | interrupted cause h hsignal => exact .interrupted cause rfl rfl (by simpa [summarize] using hsignal)
  | ended h hlast => exact .regular (.inl rfl) rfl
  | faulted f last' h hlast => exact .faulted f rfl rfl (fault_of_attempt hlast)

/-- **A run whose observer does not fail has an outcome.** -/
theorem outcome_runObserved {σ ε : Type} {m : Machine} {maxSteps : Int} {observe : Observer σ ε} {s : σ}
    (h : (m.runObserved maxSteps signal observe s).failure = none) :
    Outcome signal (m.runObserved maxSteps signal observe s).machine
      (m.runObserved maxSteps signal observe s).summary := by
  obtain ⟨n, last, -, hend⟩ := runObservedFrom_observedEnd observe maxSteps.toNat signal 0 m s
  rw [runObserved] at h ⊢
  generalize runObservedFrom observe maxSteps.toNat signal 0 m s = run at h hend ⊢
  cases hend with
  | finished summary machine s hend => exact hend.outcome
  | failed halt s error => cases h

/-- **A run without an observer has an outcome.** -/
theorem outcome_run (m : Machine) (maxSteps : Int) (signal : Signal) :
    Outcome signal (m.run maxSteps signal).2 (m.run maxSteps signal).1 := by
  -- it is the run that an idle observer sees
  obtain ⟨_, -, -, hrun⟩ := runObservedFrom_of_quiet Observer.quiet_idle maxSteps.toNat signal 0 m ()
  have hfailure : (m.runObserved maxSteps signal .idle ()).failure = none := by rw [runObserved, hrun]
  have houtcome := outcome_runObserved hfailure
  rwa [runObserved, hrun] at houtcome

/-- What a run leaves, with an observer or without. -/
def runWith {σ ε : Type} (m : Machine) (maxSteps : Int) (signal : Signal) (observe : Option (Observer σ ε))
    (s : σ) : ObservedRun σ ε :=
  match observe with
  | some observe => m.runObserved maxSteps signal observe s
  | none => ⟨(m.run maxSteps signal).1, (m.run maxSteps signal).2, s, none⟩

theorem outcome_runWith {σ ε : Type} {m : Machine} {maxSteps : Int} {observe : Option (Observer σ ε)}
    {s : σ} (h : (m.runWith maxSteps signal observe s).failure = none) :
    Outcome signal (m.runWith maxSteps signal observe s).machine
      (m.runWith maxSteps signal observe s).summary := by
  cases observe with
  | none => exact outcome_run m maxSteps signal
  | some observe => exact outcome_runObserved h

end Machine

namespace Log

/-- The entry of a message with attributes, as it is written under a span that has a name. -/
def Entry.of (span : Span) (level : Level) (message : String) (attrs : List (String × Value)) : Entry where
  level
  message := utf8 message
  attrs := (attrs ++ [("span", Value.text span)]).map fun (key, value) => (utf8 key, value)

namespace Logger

variable {l : Logger} {span : Span} {level : Level}

@[simp] theorem threshold_write (l : Logger) (span : Span) (level : Level) (message : String)
    (attrs : List (String × Value)) : (l.write span level message attrs).threshold = l.threshold := by
  unfold write writeEntry
  split <;> rfl

@[simp] theorem threshold_newSpan (l : Logger) (parent : Span) (what : Bytes) :
    (l.newSpan parent what).2.threshold = l.threshold := by
  rw [newSpan, threshold_write]

/-- What is written under a span that has a name, if the level lets it through. -/
theorem written_write (h : ¬level < l.threshold) (hspan : span ≠ []) (message : String)
    (attrs : List (String × Value)) :
    (l.write span level message attrs).written = .entry (.of span level message attrs) :: l.written := by
  have hnonempty : ¬span.isEmpty := fun hempty => hspan (List.isEmpty_iff.mp hempty)
  simp only [write, writeEntry, if_neg h, if_neg hnonempty, Entry.of, List.map_append, List.map_cons,
    List.map_nil]

/-- What is written of a new span. -/
def spanEntry (span parent : Span) (what : Bytes) : Entry :=
  .of span .debug "new span"
    (("what", .text what) :: if parent.isEmpty then [] else [("parent", .text parent)])

theorem written_newSpan (hspan : l.spanName l.drawn ≠ []) (parent : Span) (what : Bytes) :
    (l.newSpan parent what).2.written
      = (if Level.debug < l.threshold then []
          else [.entry (spanEntry (l.spanName l.drawn) parent what)]) ++ l.written := by
  split
  · next h => simp only [newSpan, write, writeEntry, if_pos h, List.nil_append]
  · next h => exact written_write (l := { l with drawn := l.drawn + 1 }) h hspan _ _

end Logger

/-- The names of the supply are not empty. -/
theorem SpanName.ofSeed_ne_nil (seed n : Nat) : ofSeed seed n ≠ [] :=
  List.ne_nil_of_length_pos (by rw [ofSeed, List.length_map, List.length_reverse, List.length_range]; decide)

end Log

namespace Session

open Log

variable {σ ε : Type}

/-- The entry at the start of a run. -/
def startEntry (span : Span) (m : Machine) (maxSteps : Int) : Entry :=
  .of span .info "run started" [("commands", .int m.program.length), ("input", .int m.pending),
    ("max_steps", .int maxSteps)]

/-- The entry at the end of a run: a warning with the error if there is one, and news if not. -/
def haltEntry (span : Span) (text : ε → Bytes) (summary : Summary) (error : Option (RunError ε)) : Entry :=
  .of span (if error.isSome then .warn else .info) "run halted"
    ([("reason", .text (utf8 summary.halt.name)), ("steps", .int summary.steps),
      ("output", .int summary.output.length)] ++
      (error.map fun e => ("error", .text (e.message text))).toList)

/-- The span of the next run. -/
def runSpan (l : Logger) : Span :=
  l.spanName l.drawn

/-- The fault in the chain of an error. -/
def RunError.fault? : RunError ε → Option Fault
  | .fault f _ => some f
  | _ => none

theorem run_eq (l : Logger) (parent : Span) (m : Machine) (maxSteps : Int) (signal : Signal)
    (text : ε → Bytes) (observe : Option (Observer σ ε)) (s : σ) :
    (run l parent m maxSteps signal text observe s).summary = (m.runWith maxSteps signal observe s).summary ∧
      (run l parent m maxSteps signal text observe s).machine
        = (m.runWith maxSteps signal observe s).machine ∧
      (run l parent m maxSteps signal text observe s).error
        = errorOf (runSpan l) (m.runWith maxSteps signal observe s).summary
          (m.runWith maxSteps signal observe s).failure := by
  cases observe <;> exact ⟨rfl, rfl, rfl⟩

theorem written_logHalt {l : Logger} (hlevel : ¬Level.info < l.threshold) {span : Span} (hspan : span ≠ [])
    (text : ε → Bytes) (summary : Summary) (error : Option (RunError ε)) :
    (logHalt l span text summary error).written
      = .entry (haltEntry span text summary error) :: l.written := by
  cases error with
  | none => exact Logger.written_write hlevel hspan _ _
  | some e =>
    -- a log that takes news takes warnings
    have hwarn : ¬Level.warn < l.threshold :=
      fun h => hlevel (Int.lt_trans (by decide : Level.info < Level.warn) h)
    exact Logger.written_write hwarn hspan _ _

/-- **What a run writes**: its start and its end, under its span, behind the entry of the new span. -/
theorem written_run {l : Logger} (hlevel : ¬Level.info < l.threshold) (hspan : runSpan l ≠ []) (parent : Span)
    (m : Machine) (maxSteps : Int) (signal : Signal) (text : ε → Bytes) (observe : Option (Observer σ ε))
    (s : σ) :
    let r := run l parent m maxSteps signal text observe s
    r.logger.written
      = .entry (haltEntry (runSpan l) text r.summary r.error)
        :: .entry (startEntry (runSpan l) m maxSteps)
        :: ((if Level.debug < l.threshold then []
            else [.entry (Logger.spanEntry (runSpan l) parent (utf8 "run"))]) ++ l.written) := by
  intro r
  have hnew : ¬Level.info < (l.newSpan parent (utf8 "run")).2.threshold := by
    rwa [Logger.threshold_newSpan]
  have hlogger : r.logger = logHalt ((l.newSpan parent (utf8 "run")).2.write (runSpan l) .info "run started"
      [("commands", .int m.program.length), ("input", .int m.pending), ("max_steps", .int maxSteps)])
      (runSpan l) text r.summary r.error := rfl
  rw [hlogger, written_logHalt (by rwa [Logger.threshold_write]) hspan, Logger.written_write hnew hspan,
    Logger.written_newSpan hspan]
  rfl

/-! ### The error -/

variable {span : Span} {signal : Signal} {last : Machine} {summary : Summary}

/-- Only a regular end is no error. -/
theorem errorOf_eq_none_iff {failure : Option (ObserverFailure ε)}
    (h : failure = none → summary.Outcome signal last) :
    errorOf span summary failure = none
      ↔ failure = none ∧ (summary.halt = .programEnded ∨ summary.halt = .budgetExhausted) := by
  cases failure with
  | some failure => simp [errorOf]
  | none => rcases h rfl with ⟨hhalt, hstop⟩ | ⟨f, hhalt, hstop, -⟩ | ⟨cause, hhalt, hstop, -⟩ <;>
      simp [errorOf, hhalt, hstop]

/-- A fault is in the chain of the error iff it is the reason for the end. -/
theorem isSome_fault?_errorOf (h : summary.Outcome signal last) :
    ((errorOf (ε := ε) span summary none).bind RunError.fault?).isSome ↔ summary.halt = .faulted := by
  rcases h with ⟨hhalt, hstop⟩ | ⟨f, hhalt, hstop, -⟩ | ⟨cause, hhalt, hstop, -⟩
  · rcases hhalt with hhalt | hhalt <;> simp [errorOf, hhalt, hstop]
  · simp [errorOf, hhalt, hstop, RunError.fault?]
  · simp [errorOf, hhalt, hstop, RunError.fault?]

/-- The fault in the chain is the machine's. -/
theorem of_fault?_errorOf_eq_some (h : summary.Outcome signal last) {f : Fault}
    (hf : (errorOf (ε := ε) span summary none).bind RunError.fault? = some f) :
    errorOf (ε := ε) span summary none = some (.fault f span) ∧ last.fault = some f := by
  rcases h with ⟨-, hstop⟩ | ⟨g, -, hstop, hfault⟩ | ⟨cause, -, hstop, -⟩
  · simp [errorOf, hstop] at hf
  · simp only [errorOf, hstop, Option.map_some, Option.bind_some, RunError.fault?, Option.some.injEq] at hf ⊢
    exact ⟨by rw [hf], by rw [hfault, hf]⟩
  · simp [errorOf, hstop, RunError.fault?] at hf

/-- An interruption is the error as it is. -/
theorem errorOf_of_canceled (h : summary.Outcome signal last) (hcanceled : summary.halt = .canceled) :
    ∃ cause, signal = .after summary.steps cause ∧
      errorOf (ε := ε) span summary none = some (.interrupted cause) := by
  rcases h with ⟨hhalt, -⟩ | ⟨f, hhalt, -, -⟩ | ⟨cause, -, hstop, hraised⟩
  · rcases hhalt with hhalt | hhalt <;> cases hhalt.symm.trans hcanceled
  · cases hhalt.symm.trans hcanceled
  · exact ⟨cause, hraised, by rw [errorOf, hstop]; rfl⟩

/-- **Error, summary and log of a run agree.** Of every machine, budget and signal, with an observer or
without: the summary is the one of the machine's own run. There is no error iff the observer did not fail
and the run ended regularly. If the observer failed, the error is its failure. If it did not, a fault is in
the chain of the error iff the reason is a fault, and it is the machine's; and a canceled run has the cause
of the signal itself as its error. In a log that takes news, which has the newest entry first, the run has
written its start and its end under its span, and nothing between them; the end is a warning with the error
if there is one, and news if not. The span has a name, as those of the supply have. -/
theorem error_summary_and_log_agree (l : Logger) (parent : Span) (m : Machine) (maxSteps : Int)
    (signal : Signal) (text : ε → Bytes) (observe : Option (Observer σ ε)) (s : σ) :
    let r := run l parent m maxSteps signal text observe s
    let o := m.runWith maxSteps signal observe s
    r.summary = o.summary ∧
      (r.error = none
        ↔ o.failure = none ∧ (r.summary.halt = .programEnded ∨ r.summary.halt = .budgetExhausted)) ∧
      (∀ failure, o.failure = some failure → r.error = some (.observer failure (runSpan l))) ∧
      (o.failure = none →
        ((r.error.bind RunError.fault?).isSome ↔ r.summary.halt = .faulted) ∧
        (∀ f, r.error.bind RunError.fault? = some f →
          r.error = some (.fault f (runSpan l)) ∧ r.machine.fault = some f) ∧
        (r.summary.halt = .canceled →
          ∃ cause, signal = .after r.summary.steps cause ∧ r.error = some (.interrupted cause))) ∧
      (¬Level.info < l.threshold → runSpan l ≠ [] →
        r.logger.written
          = .entry (haltEntry (runSpan l) text r.summary r.error)
            :: .entry (startEntry (runSpan l) m maxSteps)
            :: ((if Level.debug < l.threshold then []
                else [.entry (Logger.spanEntry (runSpan l) parent (utf8 "run"))]) ++ l.written)) := by
  intro r o
  obtain ⟨hsummary, hmachine, herror⟩ := run_eq l parent m maxSteps signal text observe s
  refine ⟨hsummary, ?_, fun failure hfailure => ?_, fun hnone => ?_,
    fun hlevel hspan => written_run hlevel hspan parent m maxSteps signal text observe s⟩
  · rw [herror, hsummary]
    exact errorOf_eq_none_iff Machine.outcome_runWith
  · rw [herror, hfailure]
    rfl
  · -- without a failure of the observer the error tells how the machine stopped
    have houtcome := Machine.outcome_runWith hnone
    rw [herror, hsummary, hmachine, hnone]
    exact ⟨isSome_fault?_errorOf houtcome, fun f => of_fault?_errorOf_eq_some houtcome,
      errorOf_of_canceled houtcome⟩

/-- A run into a fault, in a log that takes news. -/
theorem error_summary_and_log_agree_at_fault :
    let l : Logger := { threshold := .info, spanName := SpanName.ofSeed 0 }
    let m : Machine := .start ⟨#[.moveLeft], #[0], #[none]⟩ 1 []
    let r := run l [] m 9 .never id (none : Option (Observer Unit Bytes)) ()
    (r.error.bind RunError.fault?).isSome ∧
      r.logger.written
        = [.entry ⟨.warn, utf8 "run halted", [], [],
              [(utf8 "reason", .text (utf8 "faulted")), (utf8 "steps", .int 0), (utf8 "output", .int 0),
                (utf8 "error", .text (wrapSpan (SpanName.ofSeed 0 0)
                  (utf8 "run: pointer moved below cell 0 at position 0"))),
                (utf8 "span", .text (SpanName.ofSeed 0 0))]⟩,
            .entry ⟨.info, utf8 "run started", [], [],
              [(utf8 "commands", .int 1), (utf8 "input", .int 0), (utf8 "max_steps", .int 9),
                (utf8 "span", .text (SpanName.ofSeed 0 0))]⟩] := by
  intro l m r
  obtain ⟨-, -, -, hregular, hlog⟩ := error_summary_and_log_agree l [] m 9 .never id none ()
  have hfault := (hregular rfl).1.mpr rfl
  have hwritten := hlog (by decide) (SpanName.ofSeed_ne_nil 0 0)
  have herror : r.error = some (.fault ⟨0⟩ (SpanName.ofSeed 0 0)) := rfl
  have htext : utf8 ("run: " ++ Fault.message ⟨0⟩) = utf8 "run: pointer moved below cell 0 at position 0" := rfl
  refine ⟨hfault, ?_⟩
  rw [hwritten, herror, ← htext]
  rfl

end Session

end TapeMachine
