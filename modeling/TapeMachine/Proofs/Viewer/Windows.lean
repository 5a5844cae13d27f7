/-
The viewer always shows where its machine is.

The screen shows a part of the tape and a part of the program. Whatever the number of cells that is asked
for, and however the tape grows, the cell under the pointer is in the one part and the command at the program
counter in the other, and these are what stands out on the screen.

* `View.TapeInView`, `View.ProgramInView`: what the two parts are;
* `View.ShowsTape`, `View.ShowsProgram`: lists of pieces that show them, each with its place and its style;
* `View.selected`: the pieces of a screen that stand out as selected;
* `view_shows_machine`: all this on the screen of every viewer that can be reached.
-/
import TapeMachine.Proofs.Machine.Range
import TapeMachine.Proofs.Viewer.Following
import TapeMachine.Viewer.View

namespace TapeMachine.Viewer

namespace View

/-! ### Windows -/

/-- The cells from `first` up to `last` are a part of a tape that holds the pointer. They are as many as
asked for if the tape has so many, and else the whole tape. -/
structure TapeInView (cells : Int) (pointer length first last : Nat) : Prop where
  first_le : first ≤ pointer
  lt_last : pointer < last
  last_le : last ≤ length
  width : last - first = if 1 ≤ cells ∧ cells ≤ length then cells.toNat else length

/-- The commands from `start` up to `stop` are a short part of a program, which holds the program counter
unless that is behind the program. -/
structure ProgramInView (pc length start stop : Nat) : Prop where
  start_le : start ≤ stop
  stop_le : stop ≤ length
  width_le : stop - start ≤ 64
  inside : pc < length → start ≤ pc ∧ pc < stop

/-- **The part of the tape holds the pointer**, for every number of cells. -/
theorem tapeInView_tapeWindow (cells : Int) {pointer length : Nat} (h : pointer < length) :
    TapeInView cells pointer length (tapeWindow cells pointer length).1
      (tapeWindow cells pointer length).2 := by
  -- zero, negative numbers and numbers past the end all mean the whole tape
  have hwindow : (if cells ≤ 0 ∨ length < cells then length else cells.toNat) =
      if 1 ≤ cells ∧ cells ≤ length then cells.toNat else length := by
    split <;> split <;> omega
  have hpos : 0 < (if 1 ≤ cells ∧ cells ≤ length then cells.toNat else length) ∧
      (if 1 ≤ cells ∧ cells ≤ length then cells.toNat else length) ≤ length := by
    split <;> omega
  rw [tapeWindow, hwindow]
  generalize hshown : (if 1 ≤ cells ∧ cells ≤ length then cells.toNat else length) = shown at hpos ⊢
  refine { first_le := ?_, lt_last := ?_, last_le := ?_, width := ?_ }
  · dsimp only
    split <;> omega
  · dsimp only
    split <;> omega
  · dsimp only
    split <;> omega
  · rw [hshown]
    exact Nat.add_sub_cancel_left _ _

/-- **The part of the program holds the program counter**, unless that is behind the program. -/
theorem programInView_programWindow {pc length : Nat} (h : pc ≤ length) :
    ProgramInView pc length (programWindow pc length).1 (programWindow pc length).2 := by
  rw [programWindow, programWidth]
  constructor <;> dsimp only <;> omega

/-! ### Pieces in order -/

/-- The results of a function that has one for each number of a stretch. -/
theorem getElem?_filterMap_range' {α : Type} {f : Nat → Option α} (count : Nat) : ∀ {start j : Nat},
    (∀ i, start ≤ i → i < start + count → (f i).isSome) → j < count →
      ((List.range' start count).filterMap f)[j]? = f (start + j) := by
  induction count with
  | zero => exact fun _ hj => absurd hj (Nat.not_lt_zero _)
  | succ count ih =>
    intro start j hf hj
    obtain ⟨x, hx⟩ := Option.isSome_iff_exists.mp (hf start (Nat.le_refl _) (by omega))
    rw [List.range'_succ, List.filterMap_cons_some hx]
    cases j with
    | zero => exact hx.symm
    | succ j =>
      rw [List.getElem?_cons_succ, ih (fun i hi hlt => hf i (by omega) (by omega)) (by omega)]
      congr 1
      omega

/-- A function that has a result for one number only. -/
theorem filterMap_range'_of_ne {α : Type} {f : Nat → Option α} {k : Nat}
    (hf : ∀ i, i ≠ k → f i = none) (count : Nat) : ∀ start : Nat,
      (List.range' start count).filterMap f =
        if start ≤ k ∧ k < start + count then (f k).toList else [] := by
  induction count with
  | zero =>
    intro start
    rw [if_neg (by omega)]
    rfl
  | succ count ih =>
    intro start
    rw [List.range'_succ, List.filterMap_cons, ih]
    by_cases hk : start = k
    -- the stretch behind `k` has no result
    · rw [hk, if_neg (by omega), if_pos (by omega)]
      rcases f k with _ | x <;> rfl
    · rw [hf start hk]
      dsimp only
      congr 1
      exact propext ⟨fun h => by omega, fun h => by omega⟩

/-- What stands between the pieces does not count if it is not looked for. -/
theorem filter_intersperse {α : Type} {q : α → Bool} {sep : α} (h : q sep = false) (l : List α) :
    (l.intersperse sep).filter q = l.filter q := by
  induction l with
  | nil => rfl
  | cons a l ih =>
    rcases l with _ | ⟨b, l⟩
    · rfl
    · rw [List.intersperse_cons_cons, List.filter_cons, List.filter_cons_of_neg (by simp [h]), ih,
        List.filter_cons (x := a)]

/-! ### Selected pieces -/

/-- The pieces of a screen that stand out as selected. -/
def selectedSpans (spans : List Span) : List Span :=
  spans.filter fun s => s.style = .selected

@[simp] theorem selectedSpans_append (spans more : List Span) :
    selectedSpans (spans ++ more) = selectedSpans spans ++ selectedSpans more :=
  List.filter_append ..

/-- Nothing is selected in what stands around the program and the tape. -/
theorem selectedSpans_header (m : Model) : selectedSpans (header m) = [] := rfl

theorem selectedSpans_outputLines (m : Machine) : selectedSpans (outputLines m) = [] := rfl

theorem selectedSpans_status (m : Model) : selectedSpans (status m) = [] := by
  rw [status]
  split
  · rfl
  · split
    · rfl
    · split <;> rfl

theorem selectedSpans_footer (m : Model) : selectedSpans (footer m) = [] := by
  rw [footer]
  split
  · split <;> rfl
  · rfl

/-! ### The program -/

/-- The ellipsis where commands are hidden, and nothing where none are. -/
def Marks (spans : List Span) (hidden : Prop) : Prop :=
  (hidden → spans = [ellipsis]) ∧ (¬ hidden → spans = [])

/-- Pieces of text show the commands of a window one by one, the one at the program counter selected. -/
structure AreCommands (p : Program) (pc start stop : Nat) (spans : List Span) : Prop where
  length_eq : spans.length = stop - start
  piece : ∀ i, start ≤ i → i < stop → ∃ c, p.at? i = some c ∧
    spans[i - start]? = some ⟨if i = pc then .selected else .plain, c.symbol⟩

/-- Pieces of text show a part of a program: a label, and command by command what is in the window, with an
ellipsis on each side on which commands are hidden. Only the command at the program counter is selected. -/
structure ShowsProgram (p : Program) (pc : Nat) (spans : List Span) : Prop where
  window : ProgramInView pc p.length (programWindow pc p.length).1 (programWindow pc p.length).2
  pieces : ∃ left middle right,
    spans = [⟨.label, "program "⟩] ++ left ++ middle ++ right ++ [plain "\n\n"] ∧
      Marks left (∃ i c, i < (programWindow pc p.length).1 ∧ p.at? i = some c) ∧
      AreCommands p pc (programWindow pc p.length).1 (programWindow pc p.length).2 middle ∧
      Marks right (∃ i c, (programWindow pc p.length).2 ≤ i ∧ p.at? i = some c)
  selected : selectedSpans spans = (p.at? pc).toList.map fun c => ⟨.selected, c.symbol⟩

variable {p : Program} {pc : Nat}

/-- The piece of a command. -/
def piece? (p : Program) (pc i : Nat) : Option Span :=
  (p.at? i).map fun c => ⟨if i = pc then .selected else .plain, c.symbol⟩

theorem commands_eq (p : Program) (pc : Nat) : commands p pc =
    (List.range' (programWindow pc p.length).1
      ((programWindow pc p.length).2 - (programWindow pc p.length).1)).filterMap (piece? p pc) := rfl

theorem isSome_piece?_iff {i : Nat} : (piece? p pc i).isSome ↔ i < p.length := by
  rw [piece?, Option.isSome_map, Program.isSome_at?_iff]

theorem selected_piece? (p : Program) (pc i : Nat) :
    (piece? p pc i).filter (fun s => s.style = .selected) =
      if i = pc then (p.at? pc).map fun c => ⟨.selected, c.symbol⟩ else none := by
  rw [piece?]
  by_cases hi : i = pc
  · rw [hi, if_pos rfl, if_pos rfl]
    rcases p.at? pc with _ | c <;> rfl
  · rw [if_neg hi, if_neg hi]
    rcases p.at? i with _ | c <;> rfl

theorem marks_ite {q hidden : Prop} [Decidable q] (h : q ↔ hidden) :
    Marks (if q then [ellipsis] else []) hidden :=
  ⟨fun hhidden => if_pos (h.mpr hhidden), fun hshown => if_neg fun hq => hshown (h.mp hq)⟩

theorem exists_at?_iff {P : Nat → Prop} :
    (∃ i c, P i ∧ p.at? i = some c) ↔ ∃ i, P i ∧ i < p.length := by
  constructor
  · rintro ⟨i, c, hi, hc⟩
    exact ⟨i, hi, Program.isSome_at?_iff.mp (Option.isSome_of_eq_some hc)⟩
  · rintro ⟨i, hi, hlt⟩
    obtain ⟨c, hc⟩ := Option.isSome_iff_exists.mp (Program.isSome_at?_iff.mpr hlt)
    exact ⟨i, c, hi, hc⟩

/-- All commands in the window have a piece, and only that at the program counter is selected. -/
theorem selectedSpans_commands (h : pc ≤ p.length) :
    selectedSpans (commands p pc) = (p.at? pc).toList.map fun c => ⟨.selected, c.symbol⟩ := by
  obtain ⟨hstart, hstop, -, hinside⟩ := programInView_programWindow h
  rw [selectedSpans, commands_eq, List.filter_filterMap]
  simp only [selected_piece?]
  rw [filterMap_range'_of_ne (k := pc) fun i hi => if_neg hi, if_pos rfl]
  split
  · rcases p.at? pc with _ | c <;> rfl
  · next hout =>
    -- behind the program there is no command
    have hnone : p.at? pc = none := by
      rw [← Option.not_isSome_iff_eq_none, Program.isSome_at?_iff]
      omega
    rw [hnone]
    rfl

theorem areCommands_commands (h : pc ≤ p.length) :
    AreCommands p pc (programWindow pc p.length).1 (programWindow pc p.length).2 (commands p pc) := by
  obtain ⟨hstart, hstop, -, -⟩ := programInView_programWindow h
  -- each command in the window has a piece, so the pieces stand where the commands do
  have hpieces : ∀ i, (programWindow pc p.length).1 ≤ i →
      i < (programWindow pc p.length).1 +
        ((programWindow pc p.length).2 - (programWindow pc p.length).1) →
      (piece? p pc i).isSome := by
    intro i _ hi
    rw [isSome_piece?_iff]
    omega
  refine { length_eq := ?_, piece := ?_ }
  · rw [commands_eq, List.filterMap_length_eq_length.mpr, List.length_range']
    intro i hi
    obtain ⟨hfirst, hlast⟩ := List.mem_range'_1.mp hi
    exact hpieces i hfirst hlast
  · intro i hfirst hlast
    have hlt := Nat.lt_of_lt_of_le hlast hstop
    obtain ⟨c, hc⟩ := Option.isSome_iff_exists.mp (Program.isSome_at?_iff.mpr hlt)
    refine ⟨c, hc, ?_⟩
    rw [commands_eq, getElem?_filterMap_range' _ hpieces (by omega), Nat.add_sub_cancel' hfirst, piece?,
      hc]
    rfl

theorem showsProgram (h : pc ≤ p.length) : ShowsProgram p pc (programLine p pc) := by
  have hwindow := programInView_programWindow h
  have hstart := hwindow.start_le
  have hstop := hwindow.stop_le
  have hlabel : selectedSpans [⟨.label, "program "⟩] = [] := rfl
  have hend : selectedSpans [plain "\n\n"] = [] := rfl
  -- label, ellipses and line end are never selected, so all that is selected is a command
  have hmarks : ∀ q : Prop, [Decidable q] → selectedSpans (if q then [ellipsis] else []) = [] := by
    intro q _
    split <;> rfl
  refine { window := hwindow, pieces := ?_, selected := ?_ }
  · refine ⟨if 0 < (programWindow pc p.length).1 then [ellipsis] else [], commands p pc,
      if (programWindow pc p.length).2 < p.length then [ellipsis] else [], rfl, marks_ite ?_,
      areCommands_commands h, marks_ite ?_⟩
    · rw [exists_at?_iff]
      exact ⟨fun hpos => ⟨0, hpos, by omega⟩, fun ⟨i, hi, _⟩ => by omega⟩
    · rw [exists_at?_iff]
      exact ⟨fun hlt => ⟨_, Nat.le_refl _, hlt⟩, fun ⟨i, hi, hlt⟩ => by omega⟩
  · rw [programLine]
    simp only [selectedSpans_append, selectedSpans_commands h, hmarks, hlabel, hend, List.nil_append,
      List.append_nil]

/-! ### The tape -/

/-- Pieces of text are a row: three columns for each cell of a window, and a space between two of them. -/
structure IsRow (s : State) (window : Nat × Nat) (style : Nat → Style) (text : Nat → UInt8 → String)
    (spans : List Span) : Prop where
  length_eq : spans.length = 2 * (window.2 - window.1) - 1
  piece : ∀ i, window.1 ≤ i → i < window.2 →
    spans[2 * (i - window.1)]? = some ⟨style i, padLeft 3 (text i (s.tape.cell i))⟩
  space : ∀ i, window.1 ≤ i → i + 1 < window.2 → spans[2 * (i - window.1) + 1]? = some (plain " ")

/-- Pieces of text show a part of a tape: a label and three rows, the values, the characters and the places of
the cells in the window. Only the value and the character of the cell under the pointer are selected. -/
structure ShowsTape (s : State) (cells : Int) (spans : List Span) : Prop where
  window : TapeInView cells s.pointer s.tape.length (tapeWindow cells s.pointer s.tape.length).1
    (tapeWindow cells s.pointer s.tape.length).2
  pieces : ∃ values chars places,
    spans = [⟨.label, "tape    "⟩] ++ values ++ [plain "\n        "] ++ chars ++
      [plain "\n        "] ++ places ++ [plain "\n\n"] ∧
    IsRow s (tapeWindow cells s.pointer s.tape.length) (selectsPointer s)
      (fun _ b => decimal b.toNat) values ∧
    IsRow s (tapeWindow cells s.pointer s.tape.length) (selectsPointer s)
      (fun _ b => String.singleton (Display.cellChar b)) chars ∧
    IsRow s (tapeWindow cells s.pointer s.tape.length) (fun _ => .dim)
      (fun i _ => decimal (i % 1000)) places
  selected : selectedSpans spans =
    [⟨.selected, padLeft 3 (decimal s.cell.toNat)⟩,
      ⟨.selected, padLeft 3 (String.singleton (Display.cellChar s.cell))⟩]

variable {s : State} {window : Nat × Nat}

/-- Every cell in the window has its piece, behind one piece and one space for each cell before it. -/
theorem isRow_row (s : State) (window : Nat × Nat) (style : Nat → Style) (text : Nat → UInt8 → String) :
    IsRow s window style text (row s window style text) := by
  refine { length_eq := ?_, piece := ?_, space := ?_ }
  · rw [row, List.length_intersperse, List.length_map, List.length_range']
  · intro i hfirst hlast
    rw [row, List.getElem?_intersperse_two_mul, List.getElem?_map, List.getElem?_range' (by omega),
      Nat.one_mul, Nat.add_sub_cancel' hfirst]
    rfl
  · intro i hfirst hlast
    rw [row, List.getElem?_intersperse_two_mul_add_one]
    rw [List.length_map, List.length_range']
    omega

/-- In a row in which the pointer may be selected, only the piece of its cell is. -/
theorem selectedSpans_row (text : Nat → UInt8 → String) (hfirst : window.1 ≤ s.pointer)
    (hlast : s.pointer < window.2) : selectedSpans (row s window (selectsPointer s) text) =
      [⟨.selected, padLeft 3 (text s.pointer s.cell)⟩] := by
  have hpiece : ∀ i, Option.filter (fun span : Span => span.style = .selected)
      (some ⟨selectsPointer s i, padLeft 3 (text i (s.tape.cell i))⟩) =
        if i = s.pointer then some ⟨.selected, padLeft 3 (text s.pointer s.cell)⟩ else none := by
    intro i
    rw [selectsPointer]
    by_cases hi : i = s.pointer
    · rw [hi, if_pos rfl, if_pos rfl]
      rfl
    · rw [if_neg hi, if_neg hi]
      rfl
  -- the spaces between the cells are plain, so that only the pieces of the cells are left
  rw [selectedSpans, row, filter_intersperse rfl, ← List.filterMap_eq_map, List.filter_filterMap]
  simp only [Function.comp_apply, hpiece]
  rw [filterMap_range'_of_ne (k := s.pointer) fun i hi => if_neg hi, if_pos rfl, if_pos (by omega)]
  rfl

theorem selectedSpans_row_dim (text : Nat → UInt8 → String) :
    selectedSpans (row s window (fun _ => .dim) text) = [] := by
  rw [selectedSpans, row, filter_intersperse rfl, List.filter_eq_nil_iff]
  intro span hspan
  obtain ⟨i, -, rfl⟩ := List.mem_map.mp hspan
  exact of_decide_eq_false rfl

theorem showsTape (h : s.pointer < s.tape.length) (cells : Int) :
    ShowsTape s cells (tapeRows s cells) := by
  have hwindow := tapeInView_tapeWindow cells h
  refine { window := hwindow, pieces := ?_, selected := ?_ }
  · exact ⟨_, _, _, rfl, isRow_row s _ _ _, isRow_row s _ _ _, isRow_row s _ _ _⟩
  · have hlabel : selectedSpans [⟨.label, "tape    "⟩] = [] := rfl
    have hmargin : selectedSpans [plain "\n        "] = [] := rfl
    have hend : selectedSpans [plain "\n\n"] = [] := rfl
    rw [tapeRows]
    simp only [selectedSpans_append, selectedSpans_row _ hwindow.first_le hwindow.lt_last,
      selectedSpans_row_dim, hlabel, hmargin, hend, List.nil_append, List.append_nil]
    rfl

end View

/-! ### The screen -/

/-- The machine of a viewer stays in range. -/
theorem inRange_answerAll {src : Bytes} {p : Program} (hload : Program.load src = .ok p) {length : Int}
    {input : Bytes} {first : Machine} (hstart : Machine.new? p length input = some first) (cells : Int)
    (delay : Int64) (messages : List Message) :
    ((Model.new first cells delay).answerAll messages).machine.InRange p length.toNat := by
  rw [(Model.follows_answerAll first cells delay messages).machine]
  exact (path_performAll _ first).preserves (Machine.InRange.attempt hload) Machine.InRange.feed
    (Machine.inRange_of_new? hstart)

/-- **The viewer always shows where its machine is.** In whatever order messages come and whatever number of
cells is asked for, the part of the tape that is shown lies on the tape and holds the pointer, and the part
of the program lies in the program and holds the program counter unless that is behind the program. The
screen is made of pieces of text, and the pieces between its header and the output are those of the two parts:
all commands and cells of these parts in order, with an ellipsis on each side on which commands are hidden. Of
all pieces on the screen the selected ones are the command at the program counter, if there is one, and the
value and the character of the cell under the pointer. -/
theorem view_shows_machine {src : Bytes} {p : Program} (hload : Program.load src = .ok p) {length : Int}
    {input : Bytes} {first : Machine} (hstart : Machine.new? p length input = some first) (cells : Int)
    (delay : Int64) (messages : List Message) {m : Model}
    (hm : (Model.new first cells delay).answerAll messages = m) :
    m.machine.program = p ∧ m.cells = cells ∧
      (∃ program tape, m.spans = View.header m ++ program ++ tape ++
          (View.outputLines m.machine ++ View.status m ++ View.footer m) ∧
        View.ShowsProgram p m.machine.state.pc program ∧ View.ShowsTape m.machine.state cells tape) ∧
      ((p.at? m.machine.state.pc).isSome ↔ m.machine.state.pc < p.length) ∧
      View.selectedSpans m.spans =
        ((p.at? m.machine.state.pc).toList.map fun c => ⟨.selected, c.symbol⟩) ++
          [⟨.selected, padLeft 3 (decimal m.machine.state.cell.toNat)⟩,
            ⟨.selected, padLeft 3 (String.singleton (Display.cellChar m.machine.state.cell))⟩] := by
  have hrange := inRange_answerAll hload hstart cells delay messages
  have hcells : ((Model.new first cells delay).answerAll messages).cells = cells :=
    Model.cells_answerAll messages _
  rw [hm] at hrange hcells
  have htape := View.showsTape hrange.pointer_lt cells
  have hprogram := View.showsProgram hrange.pc_le
  have hspans : m.spans = View.header m ++ View.programLine p m.machine.state.pc ++
      View.tapeRows m.machine.state cells ++
      (View.outputLines m.machine ++ View.status m ++ View.footer m) := by
    rw [Model.spans, hrange.program, hcells]
    simp only [List.append_assoc]
  refine ⟨hrange.program, hcells, ⟨_, _, hspans, hprogram, htape⟩, Program.isSome_at?_iff, ?_⟩
  rw [hspans]
  simp only [View.selectedSpans_append, View.selectedSpans_header, View.selectedSpans_outputLines,
    View.selectedSpans_status, View.selectedSpans_footer, htape.selected, hprogram.selected,
    List.nil_append, List.append_nil]

/-- Two steps off a tape of one cell, shown with two cells: the window has moved with the pointer, the first
piece of text behind the label is the value of its first cell, and behind the program no command is selected. -/
theorem view_shows_machine_behind_program :
    ∃ p first m, Program.load [62, 62] = .ok p ∧ Machine.new? p 1 [] = some first ∧
      (Model.new first 2 100000000).answerAll
        [.key ⟨.characters ['n'] false, false⟩, .key ⟨.right, false⟩] = m ∧
      m.machine.state.pc = p.length ∧
      View.tapeWindow 2 m.machine.state.pointer m.machine.state.tape.length = (1, 3) ∧
      View.TapeInView 2 m.machine.state.pointer m.machine.state.tape.length 1 3 ∧
      (∃ before values behind, m.spans = before ++ [⟨.label, "tape    "⟩] ++ values ++ behind ∧
        values[0]? = some ⟨.plain, padLeft 3 (decimal 0)⟩) ∧
      View.selectedSpans m.spans = [⟨.selected, padLeft 3 (decimal 0)⟩,
        ⟨.selected, padLeft 3 (String.singleton (Display.cellChar 0))⟩] := by
  have hload : Program.load [62, 62] = .ok ⟨#[.moveRight, .moveRight], #[0, 1], #[none, none]⟩ := rfl
  have hstart : Machine.new? ⟨#[.moveRight, .moveRight], #[0, 1], #[none, none]⟩ 1 [] =
      some (.start ⟨#[.moveRight, .moveRight], #[0, 1], #[none, none]⟩ 1 []) := rfl
  obtain ⟨m, hm⟩ : ∃ m, (Model.new (.start ⟨#[.moveRight, .moveRight], #[0, 1], #[none, none]⟩ 1 []) 2
    100000000).answerAll [.key ⟨.characters ['n'] false, false⟩, .key ⟨.right, false⟩] = m := ⟨_, rfl⟩
  obtain ⟨-, -, ⟨program, tape, hspans, -, htape⟩, -, hselected⟩ :=
    view_shows_machine hload hstart 2 100000000 _ hm
  obtain ⟨values, chars, places, hpieces, hvalues, -, -⟩ := htape.pieces
  have hstate : m.machine.state = ⟨.ofList [0, 0, 0], 2, 2, []⟩ := by
    rw [← hm]
    rfl
  rw [hstate] at htape hvalues hselected
  obtain ⟨behind, hbehind⟩ : ∃ behind, m.spans = View.header m ++ program ++
      [⟨.label, "tape    "⟩] ++ values ++ behind := by
    rw [hspans, hpieces]
    simp only [List.append_assoc, List.append_cancel_left_eq]
    exact ⟨_, rfl⟩
  exact ⟨_, _, m, hload, hstart, hm, by rw [hstate]; rfl, by rw [hstate]; rfl,
    by rw [hstate]; exact htape.window, ⟨_, values, behind, hbehind,
      hvalues.piece 1 (Nat.le_refl 1) (by decide)⟩, hselected⟩

end TapeMachine.Viewer
