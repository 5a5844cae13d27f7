/-
What plain runs write.

A plain run is watched by one observer, which traces and reports its steps as the plan says. Where all
that is written fits, the run is the one that nobody watches, and what is written are the lines of the
report, the documents of the trace, or the output.

* `Plan.text`, `Plan.file?`: what a run writes to the standard output and to the file of the trace;
* `Trace.Writer.Keeps`: a writer that has written documents to a sink that has room;
* `Written.Shows`: what has been written when some steps were shown;
* `runPlain_leaves`: what a plain run leaves, in terms of the run that nobody watches.
-/
import Mathlib.Data.List.Induction
import TapeMachine.Proofs.Machine.Watch
import TapeMachine.Proofs.Text.Sink
import TapeMachine.Proofs.Trace.Stream
import TapeMachine.Tool.Report

namespace TapeMachine

/-! ### Traces with room -/

namespace Trace

/-- What follows the first documents of a stream stands behind their text. -/
theorem stream_prefix (docs more : List Document) : stream docs <+: stream (docs ++ more) := by
  induction more using List.reverseRecOn with
  | nil => simp
  | append_singleton more d ih =>
    rw [← List.append_assoc, stream_snoc]
    exact ih.trans (List.prefix_append _ _)

theorem documents_append (cells : Int) (rs more : List StepRecord) :
    ∃ later, documents cells (rs ++ more) = documents cells rs ++ later := by
  rw [documents, List.zipIdx_append, List.map_append]
  exact ⟨_, rfl⟩

/-- The writer has written the documents, to a sink that holds nothing else. -/
structure Writer.Keeps (w : Writer) (cells : Int) (limit : Option Nat) (docs : List Document) :
    Prop where
  wrote : w.Wrote cells docs
  holds : w.sink.Holds limit (stream docs)

namespace Writer.Keeps

variable {w : Writer} {cells : Int} {limit : Option Nat} {docs : List Document}

theorem write? (h : w.Keeps cells limit docs) {d : Document}
    (hfits : Fits limit (stream (docs ++ [d]))) :
    ∃ w', w.write? d = (true, w') ∧ w'.Keeps cells limit (docs ++ [d]) := by
  -- the separator is the one of the stream
  have hseparator : (if w.started then utf8 "---\n" else [])
      = if docs = [] then [] else utf8 "---\n" := by
    rw [h.wrote.started]
    rcases docs with _ | ⟨a, docs⟩ <;> simp
  have hchunks : (chunks ((if w.started then utf8 "---\n" else []) ++ Yaml.Node.renderFields 0 d)).flatten
      = (if docs = [] then [] else utf8 "---\n") ++ Yaml.Node.renderFields 0 d := by
    rw [chunks_flatten, hseparator]
  rw [stream_snoc, ← hchunks] at hfits
  obtain ⟨sink, hall, hsink⟩ := h.holds.writeAll _ hfits
  rw [hchunks, ← stream_snoc] at hsink
  have hwrite : w.write? d = (true, { w with sink, started := true }) := by
    rw [Writer.write?, h.wrote.failed, if_neg (by simp), hall]
  exact ⟨_, hwrite, h.wrote.write? hwrite, hsink⟩

theorem step (h : w.Keeps cells limit docs) {n : Nat} {r : StepRecord}
    (hfits : Fits limit (stream (docs ++ [entry cells n r]))) :
    (w.step n r).1 = none ∧ (w.step n r).2.Keeps cells limit (docs ++ [entry cells n r]) := by
  obtain ⟨w', hwrite, hw'⟩ := h.write? hfits
  rw [Writer.step, h.wrote.cells, hwrite]
  exact ⟨rfl, hw'⟩

theorem close (h : w.Keeps cells limit docs) {s : Summary}
    (hfits : Fits limit (stream (docs ++ [closing s]))) :
    (w.close s).1 = none ∧ (w.close s).2.finish = none ∧
      (w.close s).2.Keeps cells limit (docs ++ [closing s]) := by
  obtain ⟨w', hwrite, hw'⟩ := h.write? hfits
  have hstarted : w'.started = true := by
    rw [hw'.wrote.started]
    simp
  rw [closing] at hwrite
  rw [Writer.close, hwrite]
  exact ⟨rfl, by simp [finish, hstarted], hw'⟩

end Writer.Keeps

end Trace

namespace Tool

/-! ### What is written -/

/-- Lines as they are written, each with a line feed. -/
def textOf (lines : List String) : Bytes :=
  lines.flatMap fun line => utf8 line ++ [10]

/-- The lines above the steps of a report. -/
def openingLines : List String :=
  ["tapeworm: running program", Written.ruler]

/-- The lines that report a step: the step itself, and a caret if the pointer is in view. -/
def linesOfStep (cells : Int) (n : Nat) (r : StepRecord) : List String :=
  Display.stepLine n r cells :: (Display.stepCaret? n r cells).toList

/-- The lines that report some steps, numbered from 1 on. -/
def stepLines (cells : Int) (rs : List StepRecord) : List String :=
  (rs.zipIdx 1).flatMap fun (r, n) => linesOfStep cells n r

/-- The lines below the steps of a report. -/
def endingLines (s : Summary) : List String :=
  [Written.ruler, "halted: " ++ s.halt.name ++ " after " ++ decimal s.steps ++ " steps",
    "output: " ++ Display.output s.output]

namespace Plan

/-- The documents of the trace of a run: one for each step, and the closing one. -/
def documents (p : Plan) (rs : List StepRecord) (s : Summary) : List Trace.Document :=
  Trace.documents p.cells rs ++ [Trace.closing s]

/-- **What a run writes to the standard output**: a report with the lines of its steps between two rulers,
or the documents of its trace, or its output. -/
def text (p : Plan) (rs : List StepRecord) (s : Summary) : Bytes :=
  if p.reports then textOf (openingLines ++ stepLines p.cells rs ++ endingLines s)
  else if p.trace = .output then Trace.stream (p.documents rs s)
  else s.output

/-- What a run writes to the file of its trace. -/
def file? (p : Plan) (rs : List StepRecord) (s : Summary) : Option (List Bytes × Bytes) :=
  match p.trace with
  | .file place => some (place, Trace.stream (p.documents rs s))
  | .nowhere | .output => none

/-- What of a report is written when some steps were shown. -/
def begun (p : Plan) (rs : List StepRecord) : Bytes :=
  if p.reports then textOf (openingLines ++ stepLines p.cells rs) else []

/-- The limit of the trace, which is that of the standard output if it goes there. -/
def traceLimit (p : Plan) (limit : Option Nat) : Option Nat :=
  if p.trace = .output then limit else none

/-- There is room for what is written when some steps were shown. -/
structure Room (p : Plan) (limit : Option Nat) (rs : List StepRecord) : Prop where
  output : Fits limit (p.begun rs)
  trace : Fits (p.traceLimit limit) (Trace.stream (Trace.documents p.cells rs))

end Plan

theorem textOf_append (lines more : List String) :
    textOf (lines ++ more) = textOf lines ++ textOf more :=
  List.flatMap_append

theorem stepLines_snoc (cells : Int) (rs : List StepRecord) (r : StepRecord) :
    stepLines cells (rs ++ [r]) = stepLines cells rs ++ linesOfStep cells (rs.length + 1) r := by
  rw [stepLines, List.zipIdx_append, List.flatMap_append, Nat.add_comm 1]
  simp [stepLines]

theorem stepLines_append (cells : Int) (rs more : List StepRecord) :
    ∃ later, stepLines cells (rs ++ more) = stepLines cells rs ++ later := by
  rw [stepLines, List.zipIdx_append, List.flatMap_append]
  exact ⟨_, rfl⟩

namespace Plan

variable {p : Plan} {limit : Option Nat} {rs more : List StepRecord} {s : Summary}

theorem trace_ne_output (h : p.reports = true) : p.trace ≠ .output := by
  simp only [reports, Bool.and_eq_true, decide_eq_true_eq] at h
  exact h.2

theorem begun_of_not_reports (h : p.reports = false) (rs : List StepRecord) : p.begun rs = [] := by
  rw [begun, if_neg (by simp [h])]

theorem begun_snoc (h : p.reports = true) (rs : List StepRecord) (r : StepRecord) :
    p.begun (rs ++ [r]) = p.begun rs ++ textOf (linesOfStep p.cells (rs.length + 1) r) := by
  rw [begun, begun, if_pos h, if_pos h, stepLines_snoc, ← List.append_assoc, textOf_append]

theorem Room.of_append (h : p.Room limit (rs ++ more)) : p.Room limit rs where
  output := by
    have houtput := h.output
    by_cases hreports : p.reports = true
    · obtain ⟨later, hlater⟩ := stepLines_append p.cells rs more
      rw [begun, if_pos hreports, hlater, ← List.append_assoc, textOf_append] at houtput
      rw [begun, if_pos hreports]
      exact houtput.of_append
    · rw [begun, if_neg hreports]
      exact fun n _ => Nat.zero_le n
  trace := by
    obtain ⟨later, hlater⟩ := Trace.documents_append p.cells rs more
    obtain ⟨tail, htail⟩ := Trace.stream_prefix (Trace.documents p.cells rs) later
    have htrace := h.trace
    rw [hlater, ← htail] at htrace
    exact htrace.of_append

/-- **Where all that is written fits, there is room on the way.** -/
theorem room_of_fits (h : Fits limit (p.text rs s)) : p.Room limit rs where
  output := by
    by_cases hreports : p.reports = true
    · rw [text, if_pos hreports, textOf_append] at h
      rw [begun, if_pos hreports]
      exact h.of_append
    · rw [begun, if_neg hreports]
      exact fun n _ => Nat.zero_le n
  trace := by
    by_cases htrace : p.trace = .output
    · have hreports : ¬ p.reports = true := fun hreports => trace_ne_output hreports htrace
      obtain ⟨tail, htail⟩ := Trace.stream_prefix (Trace.documents p.cells rs) [Trace.closing s]
      rw [text, if_neg hreports, if_pos htrace, documents, ← htail] at h
      rw [traceLimit, if_pos htrace]
      exact h.of_append
    · rw [traceLimit, if_neg htrace]
      exact fits_none _

theorem fits_documents (h : Fits limit (p.text rs s)) :
    Fits (p.traceLimit limit) (Trace.stream (p.documents rs s)) := by
  by_cases htrace : p.trace = .output
  · -- there is no report then, and the trace is all that the standard output has to take
    have hreports : ¬ p.reports = true := fun hreports => trace_ne_output hreports htrace
    rw [text, if_neg hreports, if_pos htrace] at h
    rwa [traceLimit, if_pos htrace]
  · rw [traceLimit, if_neg htrace]
    exact fits_none _

end Plan

/-! ### The observer -/

namespace Written

variable {p : Plan} {limit : Option Nat} {rs : List StepRecord} {w : Written}

/-- Lines that fit are written, and the trace is left alone. -/
theorem holds_lines (lines : List String) : ∀ {w : Written} {text : Bytes}, w.output.Holds limit text →
    Fits limit (text ++ textOf lines) →
    (lines.foldl Written.line w).output.Holds limit (text ++ textOf lines) ∧
      (lines.foldl Written.line w).trace = w.trace := by
  induction lines with
  | nil =>
    intro w text h _
    refine ⟨?_, rfl⟩
    rw [textOf, List.flatMap_nil, List.append_nil]
    exact h
  | cons line lines ih =>
    intro w text h hfits
    have hcons : text ++ textOf (line :: lines) = text ++ (utf8 line ++ [10]) ++ textOf lines := by
      simp [textOf]
    rw [hcons] at hfits ⊢
    exact ih (h.write hfits.of_append) hfits

theorem opening_eq (w : Written) : w.opening = openingLines.foldl Written.line w := rfl

theorem ending_eq (w : Written) (s : Summary) :
    w.ending s = (endingLines s).foldl Written.line w := rfl

theorem step_eq (w : Written) (cells : Int) (n : Nat) (r : StepRecord) :
    w.step cells n r = (linesOfStep cells n r).foldl Written.line w := by
  rw [Written.step, linesOfStep]
  rcases Display.stepCaret? n r cells with _ | caret <;> rfl

/-- What has been written when some steps were shown. -/
structure Shows (p : Plan) (limit : Option Nat) (rs : List StepRecord) (w : Written) : Prop where
  output : w.output.Holds limit (p.begun rs)
  isSome : w.trace.isSome = decide (p.trace ≠ .nowhere)
  trace : ∀ writer ∈ w.trace,
    writer.Keeps p.cells (p.traceLimit limit) (Trace.documents p.cells rs)

/-- How a plain run begins. -/
def begin (p : Plan) (output : Sink) : Written :=
  if p.reports then (ofPlan p output).opening else ofPlan p output

theorem shows_begin (hroom : p.Room limit []) : (begin p { limit }).Shows p limit [] := by
  -- before the opening of a report nothing is written
  have hempty : (ofPlan p { limit }).output.Holds limit [] ∧
      (ofPlan p { limit }).trace.isSome = decide (p.trace ≠ .nowhere) ∧
      ∀ writer ∈ (ofPlan p { limit }).trace,
        writer.Keeps p.cells (p.traceLimit limit) (Trace.documents p.cells []) := by
    rw [ofPlan, Plan.traceLimit]
    cases p.trace with
    | nowhere => exact ⟨Sink.holds_new limit, rfl, nofun⟩
    | output | file =>
      refine ⟨Sink.holds_new limit, rfl, ?_⟩
      rintro writer ⟨⟩
      exact ⟨Trace.Writer.wrote_nil _ _, Sink.holds_new _⟩
  obtain ⟨houtput, hisSome, htrace⟩ := hempty
  by_cases hreports : p.reports = true
  · have hbegun : p.begun [] = [] ++ textOf openingLines := by
      rw [Plan.begun, if_pos hreports]
      rfl
    have hfits := hroom.output
    rw [hbegun] at hfits
    obtain ⟨hlines, hsame⟩ := holds_lines openingLines houtput hfits
    rw [begin, if_pos hreports, opening_eq]
    exact ⟨hbegun ▸ hlines, hsame ▸ hisSome, hsame ▸ htrace⟩
  · rw [begin, if_neg hreports]
    refine ⟨?_, hisSome, htrace⟩
    rw [Plan.begun, if_neg hreports]
    exact houtput

theorem handsOff_observer (p : Plan) : (observer p).HandsOff := by
  intro n r w
  rw [observer]
  rcases w.trace with _ | writer
  · rfl
  · dsimp only
    rcases (writer.step n r).1 with _ | e <;> rfl

theorem holds_report {r : StepRecord} (h : w.output.Holds limit (p.begun rs))
    (hfits : Fits limit (p.begun (rs ++ [r]))) :
    (if p.reports then w.step p.cells (rs.length + 1) r else w).output.Holds limit
        (p.begun (rs ++ [r])) ∧
      (if p.reports then w.step p.cells (rs.length + 1) r else w).trace = w.trace := by
  by_cases hreports : p.reports = true
  · rw [if_pos hreports, step_eq]
    rw [Plan.begun_snoc hreports] at hfits ⊢
    exact holds_lines _ h hfits
  · -- nothing is reported, so nothing is added
    have hnot : p.reports = false := by simpa using hreports
    rw [if_neg hreports]
    rw [Plan.begun_of_not_reports hnot] at h ⊢
    exact ⟨h, rfl⟩

/-- **The observer does not fail where there is room**, and writes what is due. -/
theorem Shows.observe (h : w.Shows p limit rs) {r : StepRecord}
    (hroom : p.Room limit (rs ++ [r])) :
    (observer p (rs.length + 1) r w).failure = none ∧
      (observer p (rs.length + 1) r w).state.Shows p limit (rs ++ [r]) := by
  have hisSome := h.isSome
  rcases htrace : w.trace with _ | writer
  · obtain ⟨houtput, hsame⟩ := holds_report h.output hroom.output
    simp only [observer, htrace]
    refine ⟨trivial, houtput, ?_, ?_⟩
    · rw [hsame, hisSome]
    · rw [hsame, htrace]
      exact nofun
  · have hfits := hroom.trace
    rw [Trace.documents_snoc] at hfits
    obtain ⟨hnone, hkeeps⟩ := (h.trace writer htrace).step hfits
    -- the step is traced before it is reported
    obtain ⟨houtput, hsame⟩ := holds_report
      (w := { w with trace := some (writer.step (rs.length + 1) r).2 }) h.output hroom.output
    rw [htrace] at hisSome
    simp only [observer, htrace, hnone]
    refine ⟨trivial, houtput, ?_, ?_⟩
    · rw [hsame]
      exact hisSome
    · rw [hsame, Trace.documents_snoc]
      rintro writer' ⟨⟩
      exact hkeeps

/-- **All steps of a run are shown**, where there is room. -/
theorem shows_shown (hroom : p.Room limit rs) :
    (observer p).firstFailure? 1 rs (begin p { limit }) = none ∧
      ((observer p).shown 1 rs (begin p { limit })).Shows p limit rs := by
  have hempty : p.Room limit [] := Plan.Room.of_append (show p.Room limit ([] ++ rs) from hroom)
  refine Observer.shown_induction (P := fun seen (w : Written) => w.Shows p limit seen) ?_ rs
    (List.nil_append rs) (shows_begin hempty)
  rintro seen r w ⟨rest, hrest⟩ hshows
  rw [← hrest] at hroom
  exact hshows.observe hroom.of_append

theorem Shows.endTrace (h : w.Shows p limit rs) {s : Summary}
    (hfits : Fits (p.traceLimit limit) (Trace.stream (p.documents rs s))) :
    ∃ w', w.endTrace s = (none, w') ∧ w'.output = w.output ∧
      w'.trace.isSome = decide (p.trace ≠ .nowhere) ∧
      ∀ writer ∈ w'.trace, writer.Keeps p.cells (p.traceLimit limit) (p.documents rs s) := by
  have hisSome := h.isSome
  rcases htrace : w.trace with _ | writer
  · rw [htrace] at hisSome
    refine ⟨w, by rw [Written.endTrace, htrace], rfl, htrace ▸ hisSome, ?_⟩
    rw [htrace]
    exact nofun
  · obtain ⟨hnone, hfinish, hkeeps⟩ := (h.trace writer htrace).close hfits
    rw [htrace] at hisSome
    refine ⟨{ w with trace := some (writer.close s).2 }, ?_, rfl, hisSome, ?_⟩
    · simp [Written.endTrace, htrace, hnone, hfinish]
    · rintro writer' ⟨⟩
      exact hkeeps

/-- **Where all that is written fits**, every step is shown and the trace is ended. -/
theorem ended_of_fits {s : Summary} (hfits : Fits limit (p.text rs s)) :
    ∃ w, ((observer p).shown 1 rs (begin p { limit })).endTrace s = (none, w) ∧
      w.output.Holds limit (p.begun rs) ∧ w.trace.isSome = decide (p.trace ≠ .nowhere) ∧
      ∀ writer ∈ w.trace, writer.Keeps p.cells (p.traceLimit limit) (p.documents rs s) := by
  obtain ⟨-, hshows⟩ := shows_shown (Plan.room_of_fits hfits)
  obtain ⟨w, hended, houtput, htrace⟩ := hshows.endTrace (Plan.fits_documents hfits)
  exact ⟨w, hended, houtput ▸ hshows.output, htrace⟩

end Written

/-! ### Plain runs -/

/-- The records of the steps that a run takes. -/
def stepsOf (m : Machine) (maxSteps : Int) (signal : Signal) : List StepRecord :=
  (m.takeSteps (m.run maxSteps signal).1.steps).1

/-- **The observer of a plain run changes nothing**, where all that is written fits. -/
theorem observed_eq (m : Machine) (maxSteps : Int) (signal : Signal) {p : Plan} {limit : Option Nat}
    (hroom : p.Room limit (stepsOf m maxSteps signal)) :
    m.runObserved maxSteps signal (Written.observer p) (Written.begin p { limit })
      = ⟨(m.run maxSteps signal).1, (m.run maxSteps signal).2,
        (Written.observer p).shown 1 (stepsOf m maxSteps signal) (Written.begin p { limit }),
        none⟩ := by
  obtain ⟨n, hsteps, -, hrun⟩ := Machine.runObservedFrom_of_handsOff (Written.handsOff_observer p)
    maxSteps.toNat signal 0 m (Written.begin p { limit })
  rw [Nat.zero_add] at hsteps
  rw [stepsOf, Machine.run, hsteps] at hroom ⊢
  exact hrun (Written.shows_shown hroom).1

theorem length_stepsOf (m : Machine) (maxSteps : Int) (signal : Signal) :
    (stepsOf m maxSteps signal).length = (m.run maxSteps signal).1.steps := by
  obtain ⟨n, hsteps, hlength, -⟩ := Machine.runObservedFrom_of_handsOff
    (Written.handsOff_observer ⟨false, .nowhere, 0⟩) maxSteps.toNat signal 0 m { output := {} }
  rw [Nat.zero_add] at hsteps
  rw [stepsOf, Machine.run, hsteps, hlength]

/-- The failures of a plain run of which all is written: that of the run, under the span of its log. -/
def failuresOf (l : Log.Logger) (s : Summary) : List RunFailure :=
  let error : Option (Session.RunError Trace.Error) := Session.errorOf (l.spanName l.drawn) s none
  (error.map .run).toList

theorem standardOutput_eq {p : Plan} (h : p.trace ≠ .output) (w : Written) :
    w.standardOutput p = w.output := by
  rw [Written.standardOutput]
  split
  · next htrace _ => exact absurd htrace h
  · rfl

theorem file?_eq {p : Plan} {limit : Option Nat} {rs : List StepRecord} {s : Summary} {w : Written}
    (hisSome : w.trace.isSome = decide (p.trace ≠ .nowhere))
    (htrace : ∀ writer ∈ w.trace, writer.Keeps p.cells (p.traceLimit limit) (p.documents rs s)) :
    w.file? p = p.file? rs s := by
  rw [Written.file?, Plan.file?]
  cases hplace : p.trace with
  | nowhere | output => rfl
  | file place =>
    rw [hplace] at hisSome
    -- a plan with a file has a trace, and its sink holds the documents
    obtain ⟨writer, hwriter⟩ := Option.isSome_iff_exists.mp hisSome
    rw [hwriter]
    dsimp only
    rw [(htrace writer hwriter).holds.contents]

/-- What a plain run leaves, its log apart. -/
structure PlainRun.Leaves (r : PlainRun) (m : Machine) (limit : Option Nat) (text : Bytes)
    (file : Option (List Bytes × Bytes)) (failures : List RunFailure) : Prop where
  machine : r.machine = m
  output : r.output.Holds limit text
  file : r.file = file
  failures : r.failures = failures

/-- **What a plain run leaves**, where all that it writes fits: the machine, the failures and the file that
come of the run that nobody watches, and the text of the plan. -/
theorem runPlain_leaves (l : Log.Logger) (m : Machine) (maxSteps : Int) (signal : Signal) {p : Plan}
    {limit : Option Nat}
    (hfits : Fits limit (p.text (stepsOf m maxSteps signal) (m.run maxSteps signal).1)) :
    (runPlain l m maxSteps signal p { limit }).Leaves (m.run maxSteps signal).2 limit
      (p.text (stepsOf m maxSteps signal) (m.run maxSteps signal).1)
      (p.file? (stepsOf m maxSteps signal) (m.run maxSteps signal).1)
      (failuresOf l (m.run maxSteps signal).1) := by
  have hobserved := observed_eq m maxSteps signal (Plan.room_of_fits hfits)
  obtain ⟨w, hended, hbegun, hisSome, htrace⟩ := Written.ended_of_fits hfits
  generalize stepsOf m maxSteps signal = rs at *
  generalize m.run maxSteps signal = run at *
  obtain ⟨s, last⟩ := run
  rw [Written.begin] at hobserved hended
  rw [runPlain, Session.run]
  dsimp only at hended htrace hfits ⊢
  rw [hobserved]
  dsimp only
  rw [hended]
  dsimp only
  have hfailures : failuresOf l s = failuresOf l s ++ [] := (List.append_nil _).symm
  rw [hfailures]
  by_cases hreports : p.reports = true
  · -- the report goes on behind the lines of the steps
    have htext : p.text rs s = p.begun rs ++ textOf (endingLines s) := by
      rw [Plan.text, if_pos hreports, textOf_append, Plan.begun, if_pos hreports]
    rw [htext] at hfits ⊢
    obtain ⟨hlines, hsame⟩ := Written.holds_lines (endingLines s) hbegun hfits
    rw [← Written.ending_eq] at hlines hsame
    rw [if_pos hreports]
    refine ⟨rfl, ?_, ?_, rfl⟩
    · rw [standardOutput_eq (Plan.trace_ne_output hreports)]
      exact hlines
    · exact file?_eq (hsame ▸ hisSome) (hsame ▸ htrace)
  · have hnot : p.reports = false := by simpa using hreports
    rw [Plan.begun_of_not_reports hnot] at hbegun
    rw [if_neg hreports]
    rw [Plan.text, if_neg hreports] at hfits ⊢
    by_cases houtput : p.trace = .output
    · -- the trace is on the standard output
      obtain ⟨writer, hwriter⟩ := Option.isSome_iff_exists.mp (hisSome.trans (by simp [houtput]))
      have hkeeps := htrace writer hwriter
      rw [Plan.traceLimit, if_pos houtput] at hkeeps
      rw [if_pos houtput, if_pos houtput]
      refine ⟨rfl, ?_, file?_eq hisSome htrace, rfl⟩
      rw [Written.standardOutput, houtput, hwriter]
      exact hkeeps.holds
    · -- without a report the output is written as a whole
      rw [if_neg houtput] at hfits ⊢
      obtain ⟨output, hwrite, hholds⟩ := hbegun.write? hfits
      rw [if_neg houtput, hwrite]
      dsimp only
      refine ⟨rfl, ?_, file?_eq hisSome htrace, rfl⟩
      rw [standardOutput_eq houtput]
      exact hholds

end Tool

end TapeMachine
