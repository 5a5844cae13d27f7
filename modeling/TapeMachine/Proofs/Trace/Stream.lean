/-
Traces of runs.

A trace is a stream of documents, one for each step of a run and one for its summary. Each document of a
step holds the state before and the state after it, and these join up as the steps do.

* `Linked`: each document begins with the state with which the one before it ended;
* `chunks_flatten`: the chunks in which a document passes the buffer make up the document;
* `Writer.Wrote`: what a writer has written, if nothing failed;
* `unlimited_run`: a run that is traced to a sink without a limit does not fail;
* `wrote_of_run`: a run that is traced writes the documents of its steps;
* `steps_join_up`: the records of steps form a chain, and so do the documents of a trace.
-/
import TapeMachine.Proofs.Machine.Chain
import TapeMachine.Proofs.Machine.Watch
import TapeMachine.Proofs.Text.Utf8
import TapeMachine.Trace.Writer

namespace TapeMachine

/-- The value of a field of a mapping. -/
def Yaml.Node.field? (key : String) : Yaml.Node → Option Yaml.Node
  | mapping fields => fields.lookup key
  | _ => none

theorem Bytes.joinWith_snoc (sep part : Bytes) (parts : List Bytes) :
    joinWith sep (parts ++ [part])
      = joinWith sep parts ++ ((if parts = [] then [] else sep) ++ part) := by
  unfold joinWith
  induction parts with
  | nil => simp
  | cons a parts ih =>
    rcases parts with _ | ⟨b, parts⟩
    · simp
    · rw [if_neg (List.cons_ne_nil b parts)] at ih
      rw [if_neg (List.cons_ne_nil a (b :: parts))]
      simp only [List.cons_append, List.intersperse_cons_cons, List.flatten_cons] at ih ⊢
      rw [ih]
      simp only [List.append_assoc]

theorem Sink.contents_writeAll (chunks : List Bytes) : ∀ {s s' : Sink},
    s.writeAll chunks = (true, s') → s'.contents = s.contents ++ chunks.flatten := by
  induction chunks with
  | nil =>
    intro s s' h
    cases h
    rw [List.flatten_nil, List.append_nil]
  | cons chunk chunks ih =>
    intro s s' h
    rw [writeAll] at h
    split at h
    · next s₁ hwrite =>
      rw [write?] at hwrite
      split at hwrite
      · cases hwrite
      · cases hwrite
        rw [ih h, contents, List.reverse_cons, List.flatten_append, List.flatten_singleton,
          List.append_assoc, List.flatten_cons, contents]
    · cases h

/-- A sink without a limit takes everything. -/
theorem Sink.writeAll_of_unlimited (chunks : List Bytes) : ∀ {s : Sink}, s.limit = none →
    ∃ s', s.writeAll chunks = (true, s') ∧ s'.limit = none := by
  induction chunks with
  | nil =>
    intro s h
    exact ⟨s, rfl, h⟩
  | cons chunk chunks ih =>
    intro s h
    rw [writeAll, write?, h, Option.any_none, if_neg Bool.false_ne_true]
    exact ih rfl

namespace Trace

open Yaml (Node)

/-- The fields of a document, in order. -/
abbrev Document := List (String × Node)

/-- The text of a stream of documents. -/
def stream (docs : List Document) : Bytes :=
  Bytes.joinWith (utf8 "---\n") (docs.map (Node.renderFields 0))

/-- The documents of some steps, numbered from 1 on. -/
def documents (cells : Int) (rs : List StepRecord) : List Document :=
  (rs.zipIdx 1).map fun (r, n) => entry cells n r

/-- Documents that join up: the first has the first state as the one before its step, each other one
the state that was after the step of the document before it, and the last state is the one after the
last step. -/
inductive Linked : Node → List Document → Node → Prop
  | nil (state : Node) : Linked state [] state
  | cons {d : Document} {docs : List Document} {before after last : Node}
      (hbefore : d.lookup "before" = some before) (hafter : d.lookup "after" = some after)
      (h : Linked after docs last) : Linked before (d :: docs) last

theorem length_documents (cells : Int) (rs : List StepRecord) :
    (documents cells rs).length = rs.length := by
  rw [documents, List.length_map, List.length_zipIdx]

theorem documents_snoc (cells : Int) (rs : List StepRecord) (r : StepRecord) :
    documents cells (rs ++ [r]) = documents cells rs ++ [entry cells (rs.length + 1) r] := by
  rw [documents, List.zipIdx_append, List.map_append, Nat.add_comm 1]
  rfl

theorem stream_snoc (docs : List Document) (d : Document) : stream (docs ++ [d])
    = stream docs ++ ((if docs = [] then [] else utf8 "---\n") ++ Node.renderFields 0 d) := by
  rw [stream, List.map_append, List.map_singleton, Bytes.joinWith_snoc, stream]
  simp only [List.map_eq_nil_iff]

/-- The documents of steps that join up join up. -/
theorem linked_of_joined {first last : State} {rs : List StepRecord} (h : Joined first rs last)
    (cells : Int) : Linked (state cells first) (documents cells rs) (state cells last) := by
  unfold documents
  -- the numbers of the documents make no difference, so the induction is for every first number
  generalize 1 = n
  induction rs generalizing first n with
  | nil =>
    rw [show first = last from h]
    exact .nil _
  | cons r rs ih =>
    rw [h.1]
    exact .cons (d := entry cells n r) rfl rfl (ih h.2 (n + 1))

/-! ### The buffer -/

theorem flatten_chunksFrom (rs : List Rune) : ∀ (held : List Rune) (size : Nat),
    (chunksFrom held size rs).flatten = Utf8.encode held.reverse ++ Utf8.encode rs := by
  induction rs with
  | nil =>
    intro held size
    rw [chunksFrom, List.flatten_singleton]
    exact (List.append_nil _).symm
  | cons r rs ih =>
    intro held size
    rw [chunksFrom]
    have hsplit : Utf8.encode (r :: rs) = Utf8.encode [r] ++ Utf8.encode rs :=
      Utf8.encode_append [r] rs
    split
    · rw [List.flatten_cons, ih, hsplit]
      rfl
    · -- the character waits in the buffer, behind those that are held there
      rw [ih, hsplit, List.reverse_cons, Utf8.encode_append, List.append_assoc]

/-- The chunks in which a text passes the buffer make up the text. -/
theorem chunks_flatten (text : Bytes) : (chunks text).flatten = text := by
  rw [chunks, flatten_chunksFrom]
  exact Utf8.encode_runes text

/-! ### Writers -/

/-- The writer has written the documents, and nothing failed. -/
structure Writer.Wrote (w : Writer) (cells : Int) (docs : List Document) : Prop where
  cells : w.cells = cells
  started : w.started = !docs.isEmpty
  failed : w.failed = false
  contents : w.sink.contents = stream docs

theorem Writer.wrote_nil (cells : Int) (limit : Option Nat) :
    Wrote { cells, sink := { limit } } cells [] :=
  ⟨rfl, rfl, rfl, rfl⟩

theorem Writer.Wrote.write? {w w' : Writer} {cells : Int} {docs : List Document} {d : Document}
    (h : w.Wrote cells docs) (hwrite : w.write? d = (true, w')) : w'.Wrote cells (docs ++ [d]) := by
  rw [Writer.write?, h.failed, h.started] at hwrite
  rw [if_neg (by simp)] at hwrite
  split at hwrite
  · next sink hsink =>
    cases hwrite
    refine ⟨h.cells, by simp, rfl, ?_⟩
    rw [Sink.contents_writeAll _ hsink, chunks_flatten, h.contents, stream_snoc]
    -- a separator comes before every document but the first
    rcases docs with _ | ⟨a, docs⟩ <;> simp
  · cases hwrite

theorem Writer.Wrote.step {w : Writer} {cells : Int} {docs : List Document} {n : Nat}
    {r : StepRecord} (h : w.Wrote cells docs) (hstep : (w.step n r).1 = none) :
    (w.step n r).2.Wrote cells (docs ++ [entry cells n r]) := by
  rw [Writer.step, h.cells] at hstep ⊢
  rcases hwrite : w.write? (entry cells n r) with ⟨_ | _, w'⟩
  · rw [hwrite] at hstep
    cases hstep
  · exact h.write? hwrite

/-- Nothing failed, and the sink takes everything. -/
structure Writer.Unlimited (w : Writer) : Prop where
  failed : w.failed = false
  limit : w.sink.limit = none

theorem Writer.Unlimited.write? {w : Writer} (h : w.Unlimited) (d : Document) :
    ∃ w', w.write? d = (true, w') ∧ w'.Unlimited := by
  obtain ⟨sink, hsink, hlimit⟩ := Sink.writeAll_of_unlimited
    (chunks ((if w.started then utf8 "---\n" else []) ++ Node.renderFields 0 d)) h.limit
  refine ⟨{ w with sink, started := true }, ?_, h.failed, hlimit⟩
  rw [Writer.write?, h.failed, if_neg Bool.false_ne_true, hsink]

theorem Writer.Unlimited.step {w : Writer} (h : w.Unlimited) (n : Nat) (r : StepRecord) :
    (w.step n r).1 = none ∧ (w.step n r).2.Unlimited := by
  obtain ⟨w', hwrite, hw'⟩ := h.write? (entry w.cells n r)
  rw [Writer.step, hwrite]
  exact ⟨rfl, hw'⟩

theorem Writer.Unlimited.close {w : Writer} (h : w.Unlimited) (s : Summary) :
    (w.close s).1 = none := by
  obtain ⟨w', hwrite, -⟩ :=
    h.write? (Trace.summary s.steps s.halt.name (s.stop.map Stop.message) s.output)
  rw [Writer.close, hwrite]

/-- The document that closes the trace of a run. -/
def closing (s : Summary) : Document :=
  summary s.steps s.halt.name (s.stop.map Stop.message) s.output

theorem Writer.Wrote.close {w : Writer} {cells : Int} {docs : List Document} {s : Summary}
    (h : w.Wrote cells docs) (hclose : (w.close s).1 = none) :
    (w.close s).2.Wrote cells (docs ++ [closing s]) := by
  rw [Writer.close] at hclose ⊢
  rcases hwrite : w.write? (Trace.summary s.steps s.halt.name (s.stop.map Stop.message) s.output)
    with ⟨_ | _, w'⟩
  · rw [hwrite] at hclose
    cases hclose
  · exact h.write? hwrite

theorem lookup_steps_closing (s : Summary) :
    (closing s).lookup "steps" = some (.int s.steps) := rfl

theorem lookup_output_closing (s : Summary) :
    (closing s).lookup "output" = some (.text (utf8 (Display.output s.output))) := by
  unfold closing summary
  rcases s.stop with _ | stop <;> rfl

/-- The document of the last step ends with the output that there is after it. -/
theorem output_of_joined {first last : State} {rs : List StepRecord} (h : Joined first rs last)
    (cells : Int) : ∀ d ∈ (documents cells rs).getLast?,
      (d.lookup "after").bind (Node.field? "output")
        = some (.text (utf8 (Display.output last.output))) := by
  rcases List.eq_nil_or_concat rs with rfl | ⟨qs, r, rfl⟩
  · exact nofun
  · rw [List.concat_eq_append] at h ⊢
    intro d hd
    rw [documents_snoc, List.getLast?_concat, Option.mem_some_iff] at hd
    rw [← hd, ← h.after_eq]
    rfl

/-! ### Runs -/

/-- **A run that is traced writes the documents of its steps**, if nothing fails. -/
theorem wrote_of_run {m : Machine} {cells : Int} {limit : Option Nat} {budget : Int}
    {signal : Signal} (hrun : (m.runObserved budget signal Writer.observer
      { cells, sink := { limit } }).failure = none) :
    (records (Call.perform m (.observe budget signal Writer.observer
        { cells, sink := { limit } })).1.events).length
      = (m.runObserved budget signal Writer.observer { cells, sink := { limit } }).summary.steps ∧
    (m.runObserved budget signal Writer.observer { cells, sink := { limit } }).state.Wrote cells
      (documents cells (records (Call.perform m (.observe budget signal Writer.observer
        { cells, sink := { limit } })).1.events)) := by
  refine observed_preserves (P := fun rs w => w.Wrote cells (documents cells rs)) ?_
    (Writer.wrote_nil cells limit) hrun
  intro rs r w hwrote hstep
  rw [documents_snoc]
  exact hwrote.step hstep

/-- **A run that is traced to a sink without a limit does not fail.** -/
theorem unlimited_run (m : Machine) (cells budget : Int) (signal : Signal) :
    (m.runObserved budget signal Writer.observer { cells, sink := {} }).failure = none ∧
    (m.runObserved budget signal Writer.observer { cells, sink := {} }).state.Unlimited := by
  have hstart : Writer.Unlimited { cells, sink := {} } := ⟨rfl, rfl⟩
  have hfailure : (m.runObserved budget signal Writer.observer { cells, sink := {} }).failure
      = none :=
    Machine.failure_runObservedFrom (fun n r _ h => h.step n r) budget.toNat signal 0 m _ hstart
  exact ⟨hfailure, Machine.runObservedFrom_preserves (P := fun _ w => w.Unlimited)
    (fun n r _ h _ => (h.step (n + 1) r).2) budget.toNat signal 0 m _ hstart hfailure⟩

end Trace

/-- **Steps join up, and so do the documents of a trace.** Whatever calls are made on a machine, and
whatever is fed in between, the steps that they execute form a chain from the state that a copy of the
machine shows at the start to the one that a copy shows at the end; each record names the command at its
position and tells the whole effect of its step on output and tape; and the documents of the steps join
up, from state to state.

A run that is traced to a sink without a limit does not fail, and its trace can be closed. Wherever
nothing fails, what was written is the text of the documents of the steps and of a closing one, so whoever
reads it back finds these. They join up from the state before the run to the one after it, there are as
many of them as the closing one says, and its output is that after the last step. -/
theorem steps_join_up (m : Machine) :
    (∀ (calls : List Call) (rs : List StepRecord),
      records (eventsOf (performAll calls m).1) = rs →
      Joined (m.snapshot 0).state rs ((performAll calls m).2.snapshot 0).state ∧
      (∀ r ∈ rs, r.Faithful m.program) ∧
      ∀ cells, Trace.Linked (Trace.state cells m.state) (Trace.documents cells rs)
        (Trace.state cells (performAll calls m).2.state)) ∧
    ∀ (cells : Int) (limit : Option Nat) (budget : Int) (signal : Signal)
      (run : ObservedRun Trace.Writer Trace.Error) (rs : List StepRecord),
      m.runObserved budget signal Trace.Writer.observer { cells, sink := { limit } } = run →
      records (Call.perform m (.observe budget signal Trace.Writer.observer
        { cells, sink := { limit } })).1.events = rs →
      (limit = none → run.failure = none ∧ (run.state.close run.summary).1 = none) ∧
      (run.failure = none → (run.state.close run.summary).1 = none →
        (run.state.close run.summary).2.sink.contents
            = Trace.stream (Trace.documents cells rs ++ [Trace.closing run.summary]) ∧
          Trace.Linked (Trace.state cells m.state) (Trace.documents cells rs)
            (Trace.state cells run.machine.state) ∧
          (Trace.documents cells rs).length = run.summary.steps ∧
          (Trace.closing run.summary).lookup "steps" = some (.int run.summary.steps) ∧
          ((Trace.closing run.summary).lookup "output").isSome ∧
          ∀ d ∈ (Trace.documents cells rs).getLast?,
            (d.lookup "after").bind (Yaml.Node.field? "output")
              = (Trace.closing run.summary).lookup "output") := by
  refine ⟨?_, ?_⟩
  · rintro calls rs rfl
    have hjoined := joined_of_path (path_performAll calls m)
    rw [Machine.state_snapshot, Machine.state_snapshot]
    exact ⟨hjoined, faithful_of_path (path_performAll calls m), Trace.linked_of_joined hjoined⟩
  · rintro cells limit budget signal run rs rfl rfl
    refine ⟨?_, fun hfailure hclose => ?_⟩
    · rintro rfl
      obtain ⟨hfailure, hunlimited⟩ := Trace.unlimited_run m cells budget signal
      exact ⟨hfailure, hunlimited.close _⟩
    obtain ⟨hlength, hwrote⟩ := Trace.wrote_of_run hfailure
    have hjoined := joined_of_path (m.path_runObserved budget signal Trace.Writer.observer
      { cells, sink := { limit } })
    -- the run writes its closing document from the machine as it leaves it
    have houtput : (Trace.closing (m.runObserved budget signal Trace.Writer.observer
          { cells, sink := { limit } }).summary).lookup "output"
        = some (.text (utf8 (Display.output (m.runObserved budget signal Trace.Writer.observer
          { cells, sink := { limit } }).machine.output))) := by
      rw [Trace.lookup_output_closing, Machine.runObserved, Machine.output_runObservedFrom]
    refine ⟨(hwrote.close hclose).contents, Trace.linked_of_joined hjoined cells, ?_,
      Trace.lookup_steps_closing _, ?_, ?_⟩
    · rw [Trace.length_documents, hlength]
    · rw [houtput]
      rfl
    · rw [houtput]
      exact Trace.output_of_joined hjoined cells

/-- A trace of a program that moves onto a new cell and writes it, to a sink that it does not fill. -/
theorem steps_join_up_onto_new_cell :
    ∃ p m run rs, Program.load [43, 62, 43, 46] = .ok p ∧ Machine.new? p 1 [] = some m ∧
      m.runObserved 100 .never Trace.Writer.observer { cells := 2, sink := { limit := some 1000 } }
        = run ∧
      run.failure = none ∧ (run.state.close run.summary).1 = none ∧
      (Trace.documents 2 rs).length = 4 ∧
      (run.state.close run.summary).2.sink.contents
        = Trace.stream (Trace.documents 2 rs ++ [Trace.closing ⟨4, [1], .programEnded, none⟩]) := by
  have hload : Program.load [43, 62, 43, 46] = .ok
      ⟨#[.increment, .moveRight, .increment, .write], #[0, 1, 2, 3],
        #[none, none, none, none]⟩ := rfl
  have hsummary : ((Machine.start ⟨#[.increment, .moveRight, .increment, .write], #[0, 1, 2, 3],
      #[none, none, none, none]⟩ 1 []).runObserved 100 .never Trace.Writer.observer
        { cells := 2, sink := { limit := some 1000 } }).summary
      = ⟨4, [1], .programEnded, none⟩ := by
    decide +kernel
  have hfailure : ((Machine.start ⟨#[.increment, .moveRight, .increment, .write], #[0, 1, 2, 3],
      #[none, none, none, none]⟩ 1 []).runObserved 100 .never Trace.Writer.observer
        { cells := 2, sink := { limit := some 1000 } }).failure = none := by
    decide +kernel
  have hclose : (((Machine.start ⟨#[.increment, .moveRight, .increment, .write], #[0, 1, 2, 3],
      #[none, none, none, none]⟩ 1 []).runObserved 100 .never Trace.Writer.observer
        { cells := 2, sink := { limit := some 1000 } }).state.close
          ⟨4, [1], .programEnded, none⟩).1 = none := by
    decide +kernel
  rw [← hsummary] at hclose
  obtain ⟨-, hwritten⟩ := (steps_join_up _).2 2 (some 1000) 100 .never _ _ rfl rfl
  obtain ⟨hcontents, -, hlength, -⟩ := hwritten hfailure hclose
  rw [hsummary] at hlength
  refine ⟨_, _, _, _, hload, rfl, rfl, hfailure, hclose, hlength, ?_⟩
  rw [← hsummary]
  exact hcontents

end TapeMachine
