/-
What is shown of an output tells the output.

An output without a backslash can be read back from its text, and from what the programs show of it: a
report and a frame determine it, and so does a trace whose documents are read back. The viewer hands the
text to a renderer. What a renderer draws determines an output on one line without tabs; it cannot do so for
all outputs, for a tab may be drawn as four spaces, and lines may be filled up with spaces.

* `output_reads_back`: what each of these texts tells about the output;
* `outputs_shown_alike`: outputs that look the same on the screen.
-/
import TapeMachine.Proofs.Tool.Shown
import TapeMachine.Proofs.Viewer.Shown
import TapeMachine.Proofs.Web.Json

namespace TapeMachine

open Tool (Plan PlainRun runPlain)

/-- **An output without a backslash is read back.** It is shown in printable ASCII, line feeds and tabs, and
decoding the escapes of what is shown gives it back, so no two outputs are shown alike.

Two plain runs whose reports are the same leave the same output. A trace is the text of the documents of its
run, and any library that reads back the documents of two runs tells their outputs by what it wrote. Two
frames with the same text have the same output. Two screens of the viewer with the same pieces show the same
output; so do two that are drawn alike by a renderer that puts a text of one line between marks, if the
outputs are on one line without tabs. -/
theorem output_reads_back :
    (∀ out : Bytes, '\\'.toUInt8 ∉ out →
      (∀ b ∈ utf8 (Display.output out), Display.Shown b) ∧
      Escapes.decode (utf8 (Display.output out)) = .ok out) ∧
    (∀ a b : Bytes, '\\'.toUInt8 ∉ a → '\\'.toUInt8 ∉ b → Display.output a = Display.output b → a = b) ∧
    (∀ (l l' : Log.Logger) (m n : Machine) (budget budget' : Int) (signal signal' : Signal) (p q : Plan)
      (r r' : PlainRun), runPlain l m budget signal p {} = r → runPlain l' n budget' signal' q {} = r' →
      '\\'.toUInt8 ∉ r.machine.output → '\\'.toUInt8 ∉ r'.machine.output →
      (p.reports = true → q.reports = true → r.output.contents = r'.output.contents →
        r.machine.output = r'.machine.output) ∧
      (∀ t, p.traced? r = some t → t = Trace.stream (p.documentsOf m budget signal)) ∧
      ∀ yaml : Trace.Library, yaml.ReadsBack (p.documentsOf m budget signal) →
        yaml.ReadsBack (q.documentsOf n budget' signal') →
        yaml.write (p.documentsOf m budget signal) = yaml.write (q.documentsOf n budget' signal') →
        r.machine.output = r'.machine.output) ∧
    (∀ f g : Web.Frame, '\\'.toUInt8 ∉ f.output → '\\'.toUInt8 ∉ g.output → f.json = g.json →
      f.output = g.output) ∧
    ∀ v w : Viewer.Model, '\\'.toUInt8 ∉ v.machine.output → '\\'.toUInt8 ∉ w.machine.output →
      (v.spans = w.spans → v.machine.output = w.machine.output) ∧
      ∀ r : Viewer.Renderer, r.Marks → (∀ c ∈ [9, 10], c ∉ v.machine.output ∧ c ∉ w.machine.output) →
        v.viewWith r = w.viewWith r → v.machine.output = w.machine.output := by
  refine ⟨fun out hout => ?_, fun a b => Display.output_inj, ?_, fun f g => Web.Frame.output_of_json,
    fun v w hv hw => ⟨fun h => ?_, fun r hr hflat h => ?_⟩⟩
  · exact ⟨fun b => Display.shown_of_mem_output, Display.decode_output hout⟩
  · rintro l l' m n budget budget' signal signal' p q r r' rfl rfl hm hn
    exact ⟨fun hp hq => Tool.output_of_plain_report hp hq hm hn, fun t => Tool.eq_stream_of_traced?,
      fun yaml => Tool.output_of_plain_documents hm hn⟩
  · have hfirst := Viewer.find?_spans v
    rw [h, Viewer.find?_spans w, Option.some.injEq, Viewer.Span.mk.injEq] at hfirst
    exact Display.output_inj hv hw hfirst.2.symm
  · have htab := hflat 9 (by decide)
    have hfeed := hflat 10 (by decide)
    have hshown := Viewer.output_of_viewWith hr (Viewer.flat_output hfeed.1 htab.1)
      (Viewer.flat_output hfeed.2 htab.2) h
    exact Display.output_inj hv hw hshown

/-- The program `,.,.,` writes two bytes of its input. -/
def twoBytes : Program :=
  ⟨#[.read, .write, .read, .write, .read], #[0, 1, 2, 3, 4], #[none, none, none, none, none]⟩

/-- The viewer after the key for a step was pressed five times. -/
def shownTwoBytes (cells : Int) (input : Bytes) : Viewer.Model :=
  (List.replicate 5 (.key ⟨.right, false⟩)).foldl (fun v message => (Viewer.Model.update v message).1)
    (.new (.start twoBytes 1 input) cells 10000000)

/-- A plain run of the program, which writes a tab and a space. -/
def ranTwoBytes (budget : Int) (p : Plan) : PlainRun :=
  runPlain { threshold := .error, spanName := fun _ => [] } (.start twoBytes 1 [9, 32]) budget .never p {}

/-- The library that has read one text. -/
def Trace.Library.ofText (docs : List Trace.Document) : Trace.Library where
  write := Trace.stream
  read text := if text = Trace.stream docs then some docs else none

theorem Trace.Library.readsBack_ofText (docs : List Trace.Document) : (ofText docs).ReadsBack docs :=
  if_pos rfl

/-- A run with more budget than it needs, and a longer one, with a report and with a trace; and two screens
on which a space and a letter stand, with as many cells as asked for and with all of them. -/
theorem output_reads_back_of_blanks :
    Escapes.decode (utf8 (Display.output [0, 10, 255])) = .ok [0, 10, 255] ∧
    (ranTwoBytes 10 ⟨false, .nowhere, 1⟩).machine.output
      = (ranTwoBytes 20 ⟨false, .nowhere, 1⟩).machine.output ∧
    (ranTwoBytes 10 ⟨true, .output, 1⟩).machine.output
      = (ranTwoBytes 20 ⟨false, .output, 1⟩).machine.output ∧
    Web.Frame.busy.output = ({ ending := some .busy } : Web.Frame).output ∧
    (shownTwoBytes 1 [9, 32]).machine.output = (shownTwoBytes 0 [9, 32]).machine.output ∧
    (shownTwoBytes 1 [32, 97]).machine.output = (shownTwoBytes 0 [32, 97]).machine.output := by
  obtain ⟨hread, -, hrun, hframe, hscreen⟩ := output_reads_back
  refine ⟨(hread _ (by decide)).2, ?_, ?_, ?_, ?_, ?_⟩
  · have hreport := (hrun _ _ _ _ 10 20 _ _ _ _ (ranTwoBytes 10 ⟨false, .nowhere, 1⟩)
      (ranTwoBytes 20 ⟨false, .nowhere, 1⟩) rfl rfl (by decide +kernel) (by decide +kernel)).1
    exact hreport rfl rfl (by decide +kernel)
  · have hdocs : (⟨true, .output, 1⟩ : Plan).documentsOf (.start twoBytes 1 [9, 32]) 10 .never
        = (⟨false, .output, 1⟩ : Plan).documentsOf (.start twoBytes 1 [9, 32]) 20 .never := rfl
    have htrace := (hrun _ _ _ _ 10 20 _ _ _ _ (ranTwoBytes 10 ⟨true, .output, 1⟩)
      (ranTwoBytes 20 ⟨false, .output, 1⟩) rfl rfl (by decide +kernel) (by decide +kernel)).2.2
    have hread := Trace.Library.readsBack_ofText
      ((⟨true, .output, 1⟩ : Plan).documentsOf (.start twoBytes 1 [9, 32]) 10 .never)
    have hread' := hread
    rw [hdocs] at hread'
    exact htrace _ hread hread' (congrArg _ hdocs)
  · exact hframe _ _ (by decide) (by decide) rfl
  · exact (hscreen _ _ (by decide +kernel) (by decide +kernel)).1 (by decide +kernel)
  · exact (hscreen _ _ (by decide +kernel) (by decide +kernel)).2 _ Viewer.marks_uncoloured
      (by decide +kernel) (by decide +kernel)

/-- **Outputs that are shown alike.** A tab in front of a space and a tab behind one make the same screen of
the viewer, with any renderer that draws a tab as four spaces; so do a line feed in front of a space and one
behind it, with any renderer that fills up lines. The renderer that has no colours does both. -/
theorem outputs_shown_alike :
    Program.load [44, 46, 44, 46, 44] = .ok twoBytes ∧
    (∀ input ∈ ([[9, 32], [32, 9], [10, 32], [32, 10]] : List Bytes),
      (shownTwoBytes 1 input).machine.output = input) ∧
    (∀ r : Viewer.Renderer, r.ExpandsTabs →
      (shownTwoBytes 1 [9, 32]).viewWith r = (shownTwoBytes 1 [32, 9]).viewWith r) ∧
    (∀ r : Viewer.Renderer, r.FillsLines →
      (shownTwoBytes 1 [10, 32]).viewWith r = (shownTwoBytes 1 [32, 10]).viewWith r) ∧
    (shownTwoBytes 1 [9, 32]).view = (shownTwoBytes 1 [32, 9]).view ∧
    (shownTwoBytes 1 [10, 32]).view = (shownTwoBytes 1 [32, 10]).view := by
  have htabs : ∀ r : Viewer.Renderer, r.ExpandsTabs →
      (shownTwoBytes 1 [9, 32]).viewWith r = (shownTwoBytes 1 [32, 9]).viewWith r :=
    fun r hr => Viewer.viewWith_eq_of_formed hr (by decide +kernel)
  have hfeeds : ∀ r : Viewer.Renderer, r.FillsLines →
      (shownTwoBytes 1 [10, 32]).viewWith r = (shownTwoBytes 1 [32, 10]).viewWith r :=
    fun r hr => Viewer.viewWith_eq_of_formed hr (by decide +kernel)
  exact ⟨rfl, by decide +kernel, htabs, hfeeds, htabs _ Viewer.expandsTabs_uncoloured,
    hfeeds _ Viewer.fillsLines_uncoloured⟩

end TapeMachine
