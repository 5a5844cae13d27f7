/-
The output in what a plain run writes.

A report is the lines of its steps between two rulers, and the output below them. None of the lines of the
steps is a ruler, so the output can be found in the report, whatever it is and however many steps there
are. A trace is documents, and how they are written is the matter of a library; one that reads back what it
wrote tells the documents, and the last of them holds the output.

* `textOf_append_inj`: lines up to a line that is none of them;
* `output_of_report`, `output_of_plain_report`: the report of a run determines its output;
* `Trace.Library`: what writes documents, `Plan.documentsOf`: the documents of a run;
* `output_of_plain_documents`: so does its trace, where the documents are read back.
-/
import TapeMachine.Proofs.Display.Columns
import TapeMachine.Proofs.Display.Output
import TapeMachine.Proofs.Tool.Report

namespace TapeMachine

/-! ### Libraries -/

namespace Trace

/-- What writes documents one behind the other, and reads them. -/
structure Library where
  write : List Document → Bytes
  read : Bytes → Option (List Document)

/-- The documents are read as they were written. -/
def Library.ReadsBack (yaml : Library) (docs : List Document) : Prop :=
  yaml.read (yaml.write docs) = some docs

/-- Documents that are read back are told by their text. -/
theorem Library.ReadsBack.inj {yaml : Library} {docs more : List Document} (hdocs : yaml.ReadsBack docs)
    (hmore : yaml.ReadsBack more) (h : yaml.write docs = yaml.write more) : docs = more := by
  have hread : some docs = some more := by
    rw [← hdocs, h, hmore]
  exact Option.some.inj hread

/-- The closing document determines the output, if that has no backslash. -/
theorem output_of_closing {s s' : Summary} (hs : '\\'.toUInt8 ∉ s.output)
    (hs' : '\\'.toUInt8 ∉ s'.output) (h : closing s = closing s') : s.output = s'.output := by
  have hlookup := congrArg (List.lookup "output") h
  rw [lookup_output_closing, lookup_output_closing, Option.some.injEq, Yaml.Node.text.injEq] at hlookup
  exact Display.utf8_output_inj hs hs' hlookup

end Trace

namespace Tool

/-- A line of text, with the line feed that ends it. -/
def ended (line : String) : Bytes :=
  utf8 line ++ [10]

theorem textOf_eq (lines : List String) : textOf lines = lines.flatMap ended := rfl

theorem ended_append_inj {s t : String} (hs : Printable s) (ht : Printable t) {x y : Bytes}
    (h : ended s ++ x = ended t ++ y) : s = t ∧ x = y := by
  rw [ended, ended, List.append_assoc, List.append_assoc] at h
  obtain ⟨hline, hrest⟩ := append_cons_inj (feed_not_mem_utf8 hs) (feed_not_mem_utf8 ht) h
  exact ⟨utf8_inj hline, hrest⟩

/-- **Lines can be read off** up to a line that is none of them. -/
theorem textOf_append_inj {ls ms : List String} {stop : String} {x y : Bytes}
    (hls : ∀ l ∈ ls, Printable l ∧ l ≠ stop) (hms : ∀ m ∈ ms, Printable m ∧ m ≠ stop)
    (hstop : Printable stop) (h : textOf ls ++ (ended stop ++ x) = textOf ms ++ (ended stop ++ y)) :
    ls = ms ∧ x = y := by
  have hcode : ∀ l ∈ ls, ∀ m ∈ ms, ∀ u v, ended l ++ u = ended m ++ v → l = m ∧ u = v :=
    fun l hl m hm _ _ => ended_append_inj (hls l hl).1 (hms m hm).1
  have hends : ∀ l, Printable l ∧ l ≠ stop → ∀ z u, ended stop ++ z ≠ ended l ++ u :=
    fun l hl _ _ heq => hl.2 (ended_append_inj hstop hl.1 heq).1.symm
  rw [textOf_eq, textOf_eq] at h
  obtain ⟨hlines, hrest⟩ := flatMap_append_inj hcode (fun m hm => hends m (hms m hm) x)
    (fun l hl => hends l (hls l hl) y) h
  exact ⟨hlines, List.append_cancel_left hrest⟩

theorem eq_of_mem_ruler {c : Char} (h : c ∈ Written.ruler.toList) : c = '=' := by
  have hruler : Written.ruler = String.ofList (List.replicate 50 '=') := by
    unfold Written.ruler
    rfl
  rw [hruler, String.toList_ofList] at h
  exact List.eq_of_mem_replicate h

theorem printable_ruler : Printable Written.ruler := by
  intro c hc
  rw [eq_of_mem_ruler hc]
  decide

theorem ne_ruler_of_mem {line : String} {c : Char} (hc : c ∈ line.toList) (hne : c ≠ '=') :
    line ≠ Written.ruler := by
  intro hline
  rw [hline] at hc
  exact hne (eq_of_mem_ruler hc)

/-- The lines of steps are printable, and none of them is a ruler. -/
theorem of_mem_stepLines {cells : Int} {rs : List StepRecord} :
    ∀ line ∈ stepLines cells rs, Printable line ∧ line ≠ Written.ruler := by
  intro line hline
  rw [stepLines, List.mem_flatMap] at hline
  obtain ⟨⟨r, n⟩, -, hline⟩ := hline
  rcases List.mem_cons.mp hline with rfl | hcaret
  · refine ⟨Display.printable_stepLine n r cells, ne_ruler_of_mem (c := 's') ?_ (by decide)⟩
    rw [Display.stepLine, Display.stepHead]
    simp only [String.toList_append, List.mem_append]
    exact .inl (.inl (.inl (.inl (.inl (by decide)))))
  · obtain ⟨-, rfl⟩ := Display.stepCaret?_eq_some_iff.mp (Option.mem_toList.mp hcaret)
    refine ⟨Display.printable_caretAt _, ne_ruler_of_mem (c := '^') ?_ (by decide)⟩
    rw [Display.caretAt, String.toList_append]
    exact List.mem_append_right _ (by decide)

theorem printable_haltLine (s : Summary) :
    Printable ("halted: " ++ s.halt.name ++ " after " ++ decimal s.steps ++ " steps") := by
  have hhalted : Printable ("halted: " ++ s.halt.name) := by
    cases s.halt <;> decide
  have hafter : Printable " after " := by decide
  have hsteps : Printable " steps" := by decide
  exact printable_append (printable_append (printable_append hhalted hafter) (printable_decimal _))
    hsteps

/-- **The report of a run determines its output**, if that has no backslash. -/
theorem output_of_report {p q : Plan} {rs rs' : List StepRecord} {s s' : Summary}
    (hp : p.reports = true) (hq : q.reports = true) (hs : '\\'.toUInt8 ∉ s.output)
    (hs' : '\\'.toUInt8 ∉ s'.output) (h : p.text rs s = q.text rs' s') : s.output = s'.output := by
  have htext : ∀ (plan : Plan) (rs : List StepRecord) (s : Summary), plan.reports = true →
      plan.text rs s = textOf openingLines ++ (textOf (stepLines plan.cells rs)
        ++ (ended Written.ruler ++ (ended ("halted: " ++ s.halt.name ++ " after "
          ++ decimal s.steps ++ " steps") ++ ended ("output: " ++ Display.output s.output)))) := by
    intro plan rs s hreports
    rw [Plan.text, if_pos hreports, List.append_assoc, textOf_append, textOf_append]
    simp only [endingLines, textOf, List.flatMap_cons, List.flatMap_nil, List.append_nil]
    rfl
  rw [htext p rs s hp, htext q rs' s' hq] at h
  obtain ⟨-, hrest⟩ := textOf_append_inj of_mem_stepLines of_mem_stepLines printable_ruler
    (List.append_cancel_left h)
  obtain ⟨-, houtput⟩ := ended_append_inj (printable_haltLine s) (printable_haltLine s') hrest
  rw [ended, ended, utf8_append, utf8_append, List.append_assoc, List.append_assoc] at houtput
  exact Display.utf8_output_inj hs hs'
    (List.append_cancel_right (List.append_cancel_left houtput))

/-! ### Plain runs -/

section

variable {l l' : Log.Logger} {m n : Machine} {budget budget' : Int} {signal signal' : Signal} {p q : Plan}

theorem leaves_of_unlimited (l : Log.Logger) (m : Machine) (budget : Int) (signal : Signal) (p : Plan) :
    (runPlain l m budget signal p {}).Leaves (m.run budget signal).2 none
      (p.text (stepsOf m budget signal) (m.run budget signal).1)
      (p.file? (stepsOf m budget signal) (m.run budget signal).1)
      (failuresOf l (m.run budget signal).1) :=
  runPlain_leaves l m budget signal (fits_none _)

/-- The output that a plain run leaves is the one of its summary. -/
theorem output_runPlain (l : Log.Logger) (m : Machine) (budget : Int) (signal : Signal) (p : Plan) :
    (runPlain l m budget signal p {}).machine.output = (m.run budget signal).1.output := by
  rw [(leaves_of_unlimited l m budget signal p).machine, Machine.output_run]

/-- **What a plain run reports determines the output** that it leaves, if that has no backslash. -/
theorem output_of_plain_report (hp : p.reports = true) (hq : q.reports = true)
    (hm : '\\'.toUInt8 ∉ (runPlain l m budget signal p {}).machine.output)
    (hn : '\\'.toUInt8 ∉ (runPlain l' n budget' signal' q {}).machine.output)
    (h : (runPlain l m budget signal p {}).output.contents
      = (runPlain l' n budget' signal' q {}).output.contents) :
    (runPlain l m budget signal p {}).machine.output
      = (runPlain l' n budget' signal' q {}).machine.output := by
  rw [output_runPlain] at hm hn
  rw [output_runPlain, output_runPlain]
  rw [(leaves_of_unlimited l m budget signal p).output.contents,
    (leaves_of_unlimited l' n budget' signal' q).output.contents] at h
  exact output_of_report hp hq hm hn h

/-- The documents of the trace of a run, the closing one behind those of its steps. -/
def Plan.documentsOf (p : Plan) (m : Machine) (budget : Int) (signal : Signal) : List Trace.Document :=
  p.documents (stepsOf m budget signal) (m.run budget signal).1

/-- The trace that a plain run wrote, if there is one. -/
def Plan.traced? (p : Plan) (r : PlainRun) : Option Bytes :=
  match p.trace with
  | .nowhere => none
  | .output => some r.output.contents
  | .file _ => r.file.map Prod.snd

theorem traced?_eq (h : p.trace ≠ .nowhere) : p.traced? (runPlain l m budget signal p {})
    = some (Trace.stream (p.documentsOf m budget signal)) := by
  have hleaves := leaves_of_unlimited l m budget signal p
  rw [Plan.traced?, hleaves.output.contents, hleaves.file]
  cases htrace : p.trace with
  | nowhere => exact absurd htrace h
  | output =>
    have hreports : ¬ p.reports = true := fun hreports => Plan.trace_ne_output hreports htrace
    rw [Plan.text, if_neg hreports, if_pos htrace]
    rfl
  | file place =>
    rw [Plan.file?, htrace]
    rfl

/-- The trace that is written is that of the documents. -/
theorem eq_stream_of_traced? {t : Bytes} (h : p.traced? (runPlain l m budget signal p {}) = some t) :
    t = Trace.stream (p.documentsOf m budget signal) := by
  have hplace : p.trace ≠ .nowhere := by
    intro hnowhere
    rw [Plan.traced?, hnowhere] at h
    cases h
  rw [traced?_eq hplace] at h
  exact (Option.some.inj h).symm

/-- **The trace of a plain run determines the output** that it leaves, if that has no backslash and the
documents are read back. -/
theorem output_of_plain_documents {yaml : Trace.Library}
    (hm : '\\'.toUInt8 ∉ (runPlain l m budget signal p {}).machine.output)
    (hn : '\\'.toUInt8 ∉ (runPlain l' n budget' signal' q {}).machine.output)
    (hread : yaml.ReadsBack (p.documentsOf m budget signal))
    (hread' : yaml.ReadsBack (q.documentsOf n budget' signal'))
    (h : yaml.write (p.documentsOf m budget signal) = yaml.write (q.documentsOf n budget' signal')) :
    (runPlain l m budget signal p {}).machine.output
      = (runPlain l' n budget' signal' q {}).machine.output := by
  rw [output_runPlain] at hm hn
  rw [output_runPlain, output_runPlain]
  have hdocs := hread.inj hread' h
  rw [Plan.documentsOf, Plan.documentsOf, Plan.documents, Plan.documents] at hdocs
  obtain ⟨-, hclosing⟩ := List.append_inj' hdocs rfl
  exact Trace.output_of_closing hm hn (List.cons.inj hclosing).1

end

end Tool

end TapeMachine
