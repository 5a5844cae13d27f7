/-
The output on the screen.

The output stands on the screen as the first piece of text in the style of outputs, so the pieces that a
renderer is handed determine it. What is drawn of them is the renderer's matter. One that puts a text of one
line between marks of its style draws eight lines, and the ninth holds the output, so an output on one line
without tabs can be read off the screen. One that draws a tab as four spaces tells no tabs from spaces, and
one that fills up lines tells no spaces from none at the end of a line.

* `find?_spans`: where the output is among the pieces;
* `Flat`: texts on one line without tabs, and `Renderer.Marks`: how they are drawn;
* `Covers`: as many lines, which can be read off;
* `output_of_viewWith`: screens that are the same show the same output on one line;
* `Renderer.ExpandsTabs`, `Renderer.FillsLines`: what a renderer may do to a text, and `viewWith_eq_of_formed`:
  screens that are drawn alike then.
-/
import TapeMachine.Proofs.Display.Output
import TapeMachine.Viewer.View

namespace TapeMachine.Viewer

open View

/-! ### Pieces of text -/

theorem mem_of_mem_intersperse {α : Type} {x sep : α} {l : List α} (h : x ∈ l.intersperse sep) :
    x = sep ∨ x ∈ l := by
  induction l with
  | nil => exact .inr h
  | cons a l ih =>
    rcases l with _ | ⟨b, l⟩
    · exact .inr h
    · rw [List.intersperse_cons_cons, List.mem_cons, List.mem_cons] at h
      rw [List.mem_cons]
      rcases h with rfl | rfl | h
      · exact .inr (.inl rfl)
      · exact .inl rfl
      · exact (ih h).imp_right .inr

theorem forall_mem_row {P : Span → Prop} {s : State} {window : Nat × Nat} {style : Nat → Style}
    {text : Nat → UInt8 → String} (hblank : P (plain " "))
    (hcell : ∀ i b, P ⟨style i, padLeft 3 (text i b)⟩) : ∀ span ∈ row s window style text, P span := by
  intro span hspan
  rw [row] at hspan
  rcases mem_of_mem_intersperse hspan with rfl | hmem
  · exact hblank
  · obtain ⟨i, -, rfl⟩ := List.mem_map.mp hmem
    exact hcell i _

theorem forall_mem_commands {P : Span → Prop} {p : Program} {pc : Nat}
    (h : ∀ c : Command, P ⟨.selected, c.symbol⟩ ∧ P ⟨.plain, c.symbol⟩) :
    ∀ span ∈ commands p pc, P span := by
  intro span hspan
  obtain ⟨i, -, hi⟩ := List.mem_filterMap.mp hspan
  obtain ⟨c, -, rfl⟩ := Option.map_eq_some_iff.mp hi
  split
  · exact (h c).1
  · exact (h c).2

theorem forall_mem_ellipsis {P : Span → Prop} (h : P ellipsis) (q : Prop) [Decidable q] :
    ∀ span ∈ if q then [ellipsis] else [], P span := by
  split
  · exact List.forall_mem_singleton.mpr h
  · exact List.forall_mem_nil _

/-- The pieces above the output. -/
def aboveOutput (m : Model) : List Span :=
  header m ++ programLine m.machine.program m.machine.state.pc ++ tapeRows m.machine.state m.cells

/-- The pieces above the output are in other styles. -/
theorem style_ne_output_of_mem_aboveOutput (m : Model) : ∀ s ∈ aboveOutput m, s.style ≠ .output := by
  have hstyles : Style.plain ≠ .output ∧ Style.title ≠ .output ∧ Style.label ≠ .output ∧
      Style.selected ≠ .output ∧ Style.dim ≠ .output := by decide
  obtain ⟨hplain, htitle, hlabel, hselected, hdim⟩ := hstyles
  have hselects : ∀ i, selectsPointer m.machine.state i ≠ .output := by
    intro i
    unfold selectsPointer
    split
    · exact hselected
    · exact hplain
  have hcommands : ∀ s ∈ commands m.machine.program m.machine.state.pc, s.style ≠ .output :=
    forall_mem_commands fun _ => ⟨hselected, hplain⟩
  have hellipsis := forall_mem_ellipsis (P := fun s => s.style ≠ .output) hdim
  have hrow : ∀ {window style} {text : Nat → UInt8 → String}, (∀ i, style i ≠ Style.output) →
      ∀ s ∈ row m.machine.state window style text, s.style ≠ .output :=
    fun hstyle => forall_mem_row hplain fun i _ => hstyle i
  simp only [aboveOutput, header, programLine, tapeRows, List.forall_mem_append, List.forall_mem_cons]
  refine ⟨⟨⟨htitle, hplain, List.forall_mem_nil _⟩, ?_⟩, ?_⟩
  · exact ⟨⟨⟨⟨⟨hlabel, List.forall_mem_nil _⟩, hellipsis _⟩, hcommands⟩, hellipsis _⟩, hplain,
      List.forall_mem_nil _⟩
  · exact ⟨⟨⟨⟨⟨⟨⟨hlabel, List.forall_mem_nil _⟩, hrow hselects⟩, hplain, List.forall_mem_nil _⟩,
      hrow hselects⟩, hplain, List.forall_mem_nil _⟩, hrow fun _ => hdim⟩, hplain, List.forall_mem_nil _⟩

/-- **The output is the first piece in the style of outputs**. -/
theorem find?_spans (m : Model) : m.spans.find? (·.style = .output)
    = some ⟨.output, Display.output m.machine.output⟩ := by
  have habove : (aboveOutput m).find? (·.style = .output) = none := by
    simpa using style_ne_output_of_mem_aboveOutput m
  have hspans : m.spans = aboveOutput m ++ (outputLines m.machine ++ (status m ++ footer m)) := by
    simp only [Model.spans, aboveOutput, List.append_assoc]
  rw [hspans, List.find?_append, habove, Option.none_or]
  rfl

/-! ### Texts on one line -/

/-- The text has neither line feeds nor tabs. -/
def Flat (s : String) : Prop :=
  ∀ c ∈ s.toList, c ≠ '\n' ∧ c ≠ '\t'

instance (s : String) : Decidable (Flat s) :=
  decidable_of_iff (s.toList.all fun c => c ≠ '\n' ∧ c ≠ '\t') (by
    simp only [Flat, List.all_eq_true, decide_eq_true_eq])

theorem flat_append {s t : String} : Flat (s ++ t) ↔ Flat s ∧ Flat t := by
  rw [Flat, Flat, Flat, String.toList_append, List.forall_mem_append]

theorem Flat.feed_not_mem {s : String} (h : Flat s) : '\n' ∉ s.toList :=
  fun hmem => (h _ hmem).1 rfl

theorem flat_of_printable {s : String} (h : Printable s) : Flat s := by
  intro c hc
  have hrange := h c hc
  constructor
  · rintro rfl
    exact absurd hrange.1 (by decide)
  · rintro rfl
    exact absurd hrange.1 (by decide)

theorem flat_decimal (n : Nat) : Flat (decimal n) :=
  flat_of_printable (printable_decimal n)

theorem flat_padLeft {s : String} (h : Flat s) (width : Nat) : Flat (padLeft width s) :=
  flat_append.mpr ⟨flat_of_printable (printable_spaces _), h⟩

theorem flat_ite {p : Prop} [Decidable p] {s t : String} (hs : Flat s) (ht : Flat t) :
    Flat (if p then s else t) := by
  split
  · exact hs
  · exact ht

theorem flat_fraction (places n : Nat) : Flat (Duration.fraction places n) := by
  unfold Duration.fraction
  refine flat_append.mpr ⟨flat_decimal _, flat_ite (by decide) (flat_append.mpr ⟨by decide, ?_⟩)⟩
  intro c hc
  rw [String.toList_ofList, List.mem_reverse] at hc
  have hmem := List.mem_of_mem_drop (List.mem_reverse.mp (List.dropWhile_subset _ hc))
  have hdigit := Nat.isDigit_of_mem_toDigits (by decide) (by decide) hmem
  constructor
  · rintro rfl
    exact absurd hdigit (by decide)
  · rintro rfl
    exact absurd hdigit (by decide)

theorem flat_duration (d : Int64) : Flat (Duration.text d) := by
  unfold Duration.text Duration.magnitudeText
  refine flat_ite (by decide) (flat_append.mpr ⟨flat_ite (by decide) (by decide), ?_⟩)
  refine flat_ite ?_ (flat_ite ?_ (flat_ite ?_ ?_))
  · exact flat_append.mpr ⟨flat_decimal _, by decide⟩
  · exact flat_append.mpr ⟨flat_fraction _ _, by decide⟩
  · exact flat_append.mpr ⟨flat_fraction _ _, by decide⟩
  · simp only [flat_append]
    refine ⟨⟨⟨flat_ite ?_ (by decide), flat_ite ?_ (by decide)⟩, flat_fraction _ _⟩, by decide⟩
    · exact flat_append.mpr ⟨flat_decimal _, by decide⟩
    · exact flat_append.mpr ⟨flat_decimal _, by decide⟩

/-- The character that stands for a cell is itself or a dot, never a blank but the space. -/
theorem flat_cellChar (b : UInt8) : Flat (String.singleton (Display.cellChar b)) := by
  intro c hc
  rw [String.toList_singleton, List.mem_singleton, Display.cellChar] at hc
  split at hc
  · -- a byte that is shown as it is is at least a space
    next hrange =>
    have hlt := b.toNat_lt
    have hvalid : b.toNat.isValidChar := .inl (by omega)
    have hle := UInt8.le_iff_toNat_le.mp hrange.1
    have hvalue : c.toNat = b.toNat := by
      rw [hc, Char.toNat, Utf8.toNat_val_ofNat hvalid]
    constructor
    · rintro rfl
      rw [← hvalue] at hle
      exact absurd hle (by decide)
    · rintro rfl
      rw [← hvalue] at hle
      exact absurd hle (by decide)
  · rw [hc]
    decide

/-- Only a line feed and a tab are shown as such. -/
theorem flat_output {out : Bytes} (hfeed : 10 ∉ out) (htab : 9 ∉ out) : Flat (Display.output out) := by
  intro c hc
  rw [Display.output, String.toList_ofList, List.mem_flatMap] at hc
  obtain ⟨b, hb, hc⟩ := hc
  unfold Display.outputByte at hc
  split at hc
  · -- a byte that is shown as it is is the one that it is
    have hlt := b.toNat_lt
    have hvalid : b.toNat.isValidChar := .inl (by omega)
    have hvalue : c.toNat = b.toNat := by
      rw [List.mem_singleton.mp hc, Char.toNat, Utf8.toNat_val_ofNat hvalid]
    constructor
    · rintro rfl
      have hten : b = 10 := UInt8.toNat_inj.mp hvalue.symm
      exact hfeed (hten ▸ hb)
    · rintro rfl
      have hnine : b = 9 := UInt8.toNat_inj.mp hvalue.symm
      exact htab (hnine ▸ hb)
  · have hlt := b.toNat_lt
    have hdigit : ∀ d < 16, hexDigit d ≠ '\n' ∧ hexDigit d ≠ '\t' := by decide
    simp only [List.mem_cons, List.not_mem_nil, or_false] at hc
    rcases hc with rfl | rfl | rfl | rfl
    · decide
    · decide
    · exact hdigit _ (by omega)
    · exact hdigit _ (by omega)

/-! ### Renderers -/

/-- A text without line feeds and tabs is drawn as it is, between marks of its style. -/
def Renderer.Marks (r : Renderer) : Prop :=
  ∀ style, ∃ before after, Flat before ∧ Flat after ∧
    ∀ text, Flat text → r.draw style text = before ++ text ++ after

variable {r : Renderer}

namespace Span

theorem flat_drawn (hr : r.Marks) {s : Span} (h : Flat s.content) : Flat (s.drawn r) := by
  unfold drawn
  split
  · exact h
  · obtain ⟨before, after, hbefore, hafter, hdraw⟩ := hr s.style
    rw [hdraw _ h]
    exact flat_append.mpr ⟨flat_append.mpr ⟨hbefore, h⟩, hafter⟩

/-- The characters that are drawn of some pieces. -/
def chars (r : Renderer) (spans : List Span) : List Char :=
  spans.flatMap fun s => (s.drawn r).toList

theorem chars_append (spans more : List Span) :
    chars r (spans ++ more) = chars r spans ++ chars r more :=
  List.flatMap_append

theorem chars_singleton (s : Span) : chars r [s] = (s.drawn r).toList :=
  List.flatMap_singleton ..

theorem chars_plain (text : String) : chars r [plain text] = text.toList :=
  chars_singleton _

theorem toList_viewWith (m : Model) : (m.viewWith r).toList = chars r m.spans := by
  rw [Model.viewWith, String.toList_join, List.flatMap_map]
  rfl

theorem feed_not_mem_chars (hr : r.Marks) {spans : List Span} (h : ∀ s ∈ spans, Flat s.content) :
    '\n' ∉ chars r spans := by
  rw [chars, List.mem_flatMap]
  rintro ⟨s, hs, hmem⟩
  exact (flat_drawn hr (h s hs)).feed_not_mem hmem

end Span

/-! ### Lines of the screen -/

/-- The characters are `n` lines, each with the line feed that ends it. -/
def Covers (n : Nat) (cs : List Char) : Prop :=
  ∃ lines : List (List Char), lines.length = n ∧ (∀ l ∈ lines, '\n' ∉ l) ∧
    cs = lines.flatMap (· ++ ['\n'])

theorem covers_line {l : List Char} (h : '\n' ∉ l) : Covers 1 (l ++ ['\n']) :=
  ⟨[l], rfl, List.forall_mem_singleton.mpr h, (List.flatMap_singleton ..).symm⟩

theorem Covers.append {m n : Nat} {cs ds : List Char} (hcs : Covers m cs) (hds : Covers n ds) :
    Covers (m + n) (cs ++ ds) := by
  obtain ⟨lines, hlength, hlines, rfl⟩ := hcs
  obtain ⟨more, hmore, hmoreLines, rfl⟩ := hds
  exact ⟨lines ++ more, by rw [List.length_append, hlength, hmore],
    List.forall_mem_append.mpr ⟨hlines, hmoreLines⟩, List.flatMap_append.symm⟩

/-- **As many lines can be read off** one text as the other. -/
theorem Covers.append_inj {n : Nat} {cs ds x y : List Char} (hcs : Covers n cs) (hds : Covers n ds)
    (h : cs ++ x = ds ++ y) : x = y := by
  obtain ⟨lines, hlength, hlines, rfl⟩ := hcs
  obtain ⟨more, hmore, hmoreLines, rfl⟩ := hds
  induction n generalizing lines more with
  | zero =>
    rw [List.length_eq_zero_iff.mp hlength, List.length_eq_zero_iff.mp hmore] at h
    exact h
  | succ n ih =>
    obtain ⟨l, lines, rfl⟩ := List.exists_cons_of_length_eq_add_one hlength
    obtain ⟨k, more, rfl⟩ := List.exists_cons_of_length_eq_add_one hmore
    obtain ⟨hl, hlines⟩ := List.forall_mem_cons.mp hlines
    obtain ⟨hk, hmoreLines⟩ := List.forall_mem_cons.mp hmoreLines
    simp only [List.flatMap_cons, List.append_assoc, List.cons_append, List.nil_append] at h
    exact ih lines (Nat.succ.inj hlength) hlines more (Nat.succ.inj hmore) hmoreLines
      (append_cons_inj hl hk h).2

/-- A line with an empty one behind it. -/
theorem covers_blank {l : List Char} (h : '\n' ∉ l) : Covers 2 (l ++ "\n\n".toList) := by
  have hblank : l ++ "\n\n".toList = (l ++ ['\n']) ++ ([] ++ ['\n']) := by
    rw [List.append_assoc]
    rfl
  rw [hblank]
  exact (covers_line h).append (covers_line List.not_mem_nil)

/-! ### The screen -/

open TapeMachine.Viewer.Span (chars chars_append chars_plain chars_singleton feed_not_mem_chars
  toList_viewWith)

theorem covers_header (hr : r.Marks) (m : Model) : Covers 2 (chars r (header m)) := by
  have htitle : '\n' ∉ chars r [⟨.title, "tapeworm"⟩] :=
    feed_not_mem_chars hr (List.forall_mem_singleton.mpr (by decide))
  have hstep : Flat ("  step " ++ decimal m.machine.steps ++ "  "
      ++ (if m.playing then "playing" else "paused") ++ "  delay " ++ Duration.text m.delay) := by
    simp only [flat_append]
    exact ⟨⟨⟨⟨⟨by decide, flat_decimal _⟩, by decide⟩, flat_ite (by decide) (by decide)⟩, by decide⟩,
      flat_duration _⟩
  rw [header, ← List.singleton_append, chars_append, chars_plain, String.toList_append,
    ← List.append_assoc]
  exact covers_blank fun hmem => (List.mem_append.mp hmem).elim htitle hstep.feed_not_mem

theorem covers_programLine (hr : r.Marks) (p : Program) (pc : Nat) :
    Covers 2 (chars r (programLine p pc)) := by
  have hsymbol : ∀ c : Command, Flat c.symbol := by
    intro c
    cases c <;> decide
  have hcommands : ∀ s ∈ commands p pc, Flat s.content :=
    forall_mem_commands fun c => ⟨hsymbol c, hsymbol c⟩
  have hellipsis := forall_mem_ellipsis (P := fun s => Flat s.content) (by decide)
  rw [programLine, chars_append, chars_plain]
  refine covers_blank (feed_not_mem_chars hr ?_)
  simp only [List.forall_mem_append, List.forall_mem_singleton]
  exact ⟨⟨⟨by decide, hellipsis _⟩, hcommands⟩, hellipsis _⟩

theorem flat_row {s : State} {window : Nat × Nat} {style : Nat → Style} {text : Nat → UInt8 → String}
    (h : ∀ i b, Flat (text i b)) : ∀ span ∈ row s window style text, Flat span.content :=
  forall_mem_row (by decide) fun i b => flat_padLeft (h i b) 3

theorem covers_tapeRows (hr : r.Marks) (s : State) (cells : Int) :
    Covers 4 (chars r (tapeRows s cells)) := by
  have hmargin : "\n        ".toList = ['\n'] ++ "        ".toList := rfl
  have hvalues : '\n' ∉ chars r ([⟨.label, "tape    "⟩]
      ++ row s (tapeWindow cells s.pointer s.tape.length) (selectsPointer s) fun _ b =>
        decimal b.toNat) := by
    refine feed_not_mem_chars hr (List.forall_mem_append.mpr
      ⟨List.forall_mem_singleton.mpr (by decide), ?_⟩)
    exact flat_row fun _ b => flat_decimal _
  -- the rows below the values have a margin where these have the label
  have hrow : ∀ (style : Nat → Style) {text : Nat → UInt8 → String}, (∀ i b, Flat (text i b)) →
      '\n' ∉ "        ".toList
        ++ chars r (row s (tapeWindow cells s.pointer s.tape.length) style text) := by
    intro style text htext hmem
    rcases List.mem_append.mp hmem with hmem | hmem
    · exact absurd hmem (by decide)
    · exact feed_not_mem_chars hr (flat_row htext) hmem
  have hchars := hrow (selectsPointer s) fun _ b => flat_cellChar b
  have hplaces := hrow (fun _ => .dim) fun i _ => flat_decimal (i % 1000)
  have hrows := ((covers_line hvalues).append (covers_line hchars)).append (covers_blank hplaces)
  rw [tapeRows]
  simpa only [chars_append, chars_plain, hmargin, List.append_assoc] using hrows

/-- **The output stands below the eighth line**, whatever there is to show. -/
theorem covers_aboveOutput (hr : r.Marks) (m : Model) : Covers 8 (chars r (aboveOutput m)) := by
  rw [aboveOutput, chars_append, chars_append]
  exact ((covers_header hr m).append (covers_programLine hr _ _)).append (covers_tapeRows hr _ _)

/-- The pieces of the line of the output, which may be several lines. -/
def outputLine (m : Model) : List Span :=
  [⟨.label, "output  "⟩, ⟨.output, Display.output m.machine.output⟩, plain "\n"]

theorem exists_spans_eq (m : Model) : ∃ below, m.spans = aboveOutput m ++ (outputLine m ++ below) := by
  refine ⟨[⟨.label, "pending "⟩, plain (decimal m.machine.pending ++ " byte(s)\n\n")]
    ++ (status m ++ footer m), ?_⟩
  simp only [Model.spans, aboveOutput, outputLines, outputLine, List.append_assoc, List.cons_append,
    List.nil_append]

/-- The characters of the line of an output on one line. -/
theorem chars_outputLine (hr : r.Marks) : ∃ before after : String, Flat after ∧ ∀ (m : Model) below,
    Flat (Display.output m.machine.output) → chars r (outputLine m ++ below) = before.toList
      ++ ((Display.output m.machine.output).toList ++ after.toList ++ '\n' :: chars r below) := by
  obtain ⟨before, after, -, hafter, hdraw⟩ := hr .output
  refine ⟨r.draw .label "output  " ++ before, after, hafter, fun m below hflat => ?_⟩
  have hfeed : chars r [plain "\n"] = ['\n'] := chars_plain _
  have hdrawn : chars r [⟨.output, Display.output m.machine.output⟩]
      = (before ++ Display.output m.machine.output ++ after).toList := by
    rw [chars_singleton]
    exact congrArg String.toList (hdraw _ hflat)
  have hpieces : outputLine m = [⟨.label, "output  "⟩] ++ ([⟨.output, Display.output m.machine.output⟩]
      ++ [plain "\n"]) := rfl
  rw [hpieces, chars_append, chars_append, chars_append, hfeed, hdrawn, chars_singleton]
  simp only [Span.drawn, String.toList_append, List.append_assoc, List.cons_append, List.nil_append]

/-- **Screens that are the same show the same output**, if it stands on one line without tabs. -/
theorem output_of_viewWith (hr : r.Marks) {m n : Model} (hm : Flat (Display.output m.machine.output))
    (hn : Flat (Display.output n.machine.output)) (h : m.viewWith r = n.viewWith r) :
    Display.output m.machine.output = Display.output n.machine.output := by
  obtain ⟨below, hbelow⟩ := exists_spans_eq m
  obtain ⟨below', hbelow'⟩ := exists_spans_eq n
  obtain ⟨before, after, hafter, hline⟩ := chars_outputLine hr
  have hchars : chars r m.spans = chars r n.spans := by
    rw [← toList_viewWith, h, toList_viewWith]
  rw [hbelow, hbelow', chars_append, chars_append (aboveOutput n)] at hchars
  -- eight lines down both screens show their output
  have hlines := (covers_aboveOutput hr m).append_inj (covers_aboveOutput hr n) hchars
  rw [hline m below hm, hline n below' hn] at hlines
  -- and the line ends with the first line feed
  have hends : ∀ {s : String}, Flat s → '\n' ∉ s.toList ++ after.toList := fun hs hmem =>
    (List.mem_append.mp hmem).elim hs.feed_not_mem hafter.feed_not_mem
  obtain ⟨htext, -⟩ := append_cons_inj (hends hm) (hends hn) (List.append_cancel_left hlines)
  exact String.toList_inj.mp (List.append_cancel_right htext)

/-! ### Screens that are drawn alike -/

/-- Texts of the same form are drawn alike. -/
def Renderer.DrawsBy (r : Renderer) (form : String → String) : Prop :=
  ∀ style text other, form text = form other → r.draw style text = r.draw style other

/-- A tab is drawn as four spaces. -/
def Renderer.ExpandsTabs (r : Renderer) : Prop :=
  r.DrawsBy fun text => String.ofList (Span.untabbed text)

/-- A text is drawn as a block, whose lines are all as wide as the widest. -/
def Renderer.FillsLines (r : Renderer) : Prop :=
  r.DrawsBy Span.block

/-- A piece with the form of its text, if it is drawn. -/
def Span.formed (form : String → String) (s : Span) : Span :=
  match s.style with
  | .plain => s
  | style => ⟨style, form s.content⟩

variable {form : String → String}

theorem Span.drawn_eq_of_formed (hr : r.DrawsBy form) {s t : Span} (h : s.formed form = t.formed form) :
    s.drawn r = t.drawn r := by
  obtain ⟨style, content⟩ := s
  obtain ⟨style', content'⟩ := t
  have hstyle : ∀ style content, (Span.formed form ⟨style, content⟩).style = style := by
    intro style content
    cases style <;> rfl
  have hsame : style = style' := by
    rw [← hstyle style content, h, hstyle]
  subst hsame
  cases style with
  | plain => exact congrArg (Span.drawn r) h
  | title | label | selected | dim | output | error =>
    exact hr _ content content' (congrArg Span.content h)

theorem Span.map_drawn_eq_of_formed (hr : r.DrawsBy form) {spans others : List Span}
    (h : spans.map (Span.formed form) = others.map (Span.formed form)) :
    spans.map (Span.drawn r) = others.map (Span.drawn r) := by
  induction spans generalizing others with
  | nil => rw [List.map_eq_nil_iff.mp h.symm]
  | cons s spans ih =>
    obtain ⟨t, more, rfl, hst, hmore⟩ := List.map_eq_cons_iff.mp h.symm
    rw [List.map_cons, List.map_cons, Span.drawn_eq_of_formed hr hst, ih hmore.symm]

/-- **Screens are drawn alike** if their pieces have the same forms. -/
theorem viewWith_eq_of_formed (hr : r.DrawsBy form) {m n : Model}
    (h : m.spans.map (Span.formed form) = n.spans.map (Span.formed form)) :
    m.viewWith r = n.viewWith r := by
  rw [Model.viewWith, Model.viewWith, Span.map_drawn_eq_of_formed hr h]

/-! ### The renderer without colours -/

namespace Span

theorem untabbed_of_not_mem {text : String} (h : '\t' ∉ text.toList) : untabbed text = text.toList := by
  have hsingle : ∀ c ∈ text.toList, (if c = '\t' then List.replicate 4 ' ' else [c]) = [c] := by
    intro c hc
    rw [if_neg]
    rintro rfl
    exact h hc
  rw [untabbed, List.flatMap_def, List.map_congr_left hsingle, ← List.flatMap_def]
  exact List.flatMap_singleton' _

theorem block_of_flat {text : String} (h : Flat text) : block text = text := by
  have htab : '\t' ∉ text.toList := fun hmem => (h _ hmem).2 rfl
  have hlines : lines text = [text] := by
    rw [lines, untabbed_of_not_mem htab, List.splitOn_eq_singleton h.feed_not_mem, List.map_singleton,
      String.ofList_toList]
  have hwidth : Help.widest [text] = text.length := by
    simp [Help.widest]
  have hpad : padRight text.length text = text := by
    rw [padRight, Nat.sub_self]
    exact String.append_empty
  rw [block, hlines, List.map_singleton, hwidth, hpad, String.intercalate_singleton]

end Span

theorem draw_uncoloured (style : Style) (text : String) : Renderer.uncoloured.draw style text
    = if style = .title then " " ++ Span.block text ++ " " else Span.block text := by
  cases style with
  | title => exact (if_pos rfl).symm
  | plain | label | selected | dim | output | error => exact (if_neg (by decide)).symm

/-- Without colours only a title has marks, a space on each side. -/
theorem marks_uncoloured : Renderer.uncoloured.Marks := by
  intro style
  by_cases htitle : style = .title
  · refine ⟨" ", " ", by decide, by decide, fun text h => ?_⟩
    rw [draw_uncoloured, if_pos htitle, Span.block_of_flat h]
  · refine ⟨"", "", by decide, by decide, fun text h => ?_⟩
    rw [draw_uncoloured, if_neg htitle, Span.block_of_flat h, String.empty_append, String.append_empty]

/-- Without colours texts with the same block are drawn alike. -/
theorem fillsLines_uncoloured : Renderer.uncoloured.FillsLines := by
  intro style text other h
  rw [draw_uncoloured, draw_uncoloured, h]

theorem expandsTabs_uncoloured : Renderer.uncoloured.ExpandsTabs := by
  intro style text other h
  have hblock : Span.block text = Span.block other := by
    rw [Span.block, Span.block, Span.lines, Span.lines, String.ofList_injective h]
  exact fillsLines_uncoloured style text other hblock

end TapeMachine.Viewer
