/-
The columns of tapes.

Every cell of a tape has the same columns in the line of values, in the line of characters and above
the caret, also behind the head of a step's line, which may have any width.

* `aligned_tapeLine`, `getElem?_charLine`, `getElem?_caretLine`: what stands in the columns of a cell;
* `tapeLine_inj`: the values can be read off;
* `columns_line_up`: the columns of the lines, for all tapes and for the steps of all machines.
-/
import TapeMachine.Display.Tape
import TapeMachine.Proofs.Machine.Call
import TapeMachine.Proofs.Machine.Tape
import TapeMachine.Proofs.Text.Layout

namespace TapeMachine.Display

/-- The columns of a cell's value. -/
def field (b : UInt8) : List Char :=
  (padLeft 3 (decimal b.toNat)).toList

theorem aligned_field (b : UInt8) : Aligned 3 (field b) b.toNat := by
  have hlt := b.toNat_lt
  exact aligned_padLeft (by omega) (by decide)

/-- The columns of a cell's character. -/
def charField (b : UInt8) : List Char :=
  [' ', ' ', cellChar b]

/-- A line shows the cells of the window. -/
theorem lineCells_eq (t : Tape) (cells : Int) : lineCells t cells = (t.window cells).toList := by
  have htest : (t.length < cells ∨ cells ≤ 0) ↔ (cells ≤ 0 ∨ t.length < cells) := or_comm
  rw [← t.first_eq_window]
  simp only [lineCells, htest]

theorem toList_spaced (parts : List String) :
    (spaced parts).toList = [' '].intercalate (parts.map String.toList) :=
  String.toList_intercalate

theorem toList_tapeLine (t : Tape) (cells : Int) :
    (tapeLine t cells).toList = [' '].intercalate ((t.window cells).toList.map field) := by
  rw [tapeLine, lineCells_eq, toList_spaced, List.map_map]
  rfl

theorem toList_charLine (t : Tape) (cells : Int) :
    (charLine t cells).toList = [' '].intercalate ((t.window cells).toList.map charField) := by
  rw [charLine, lineCells_eq, toList_spaced, List.map_map]
  refine congrArg _ (List.map_congr_left fun b _ => ?_)
  rw [Function.comp_apply, String.toList_append, String.toList_singleton]
  rfl

section Cells

variable {t : Tape} {cells : Int} {i : Nat}

theorem getElem?_window (h : i < (t.window cells).length) :
    (t.window cells).toList[i]? = some (t.cell i) := by
  rw [Tape.length_window] at h
  have hlength : i < t.toList.length := Nat.lt_of_lt_of_le h (Tape.windowLength_le ..)
  rw [Tape.toList_window, List.getElem?_take_of_lt h, Tape.cell_eq,
    List.getElem?_eq_getElem hlength]
  rfl

theorem getElem?_map_window {α : Type} (f : UInt8 → α) (h : i < (t.window cells).length) :
    ((t.window cells).toList.map f)[i]? = some (f (t.cell i)) := by
  rw [List.getElem?_map, getElem?_window h]
  rfl

theorem length_field_of_mem : ∀ f ∈ (t.window cells).toList.map field, f.length = 3 :=
  List.forall_mem_map.mpr fun b _ => (aligned_field b).1

theorem drop_tapeLine (h : i < (t.window cells).length) :
    (tapeLine t cells).toList.drop (4 * i) = field (t.cell i)
      ++ (((t.window cells).toList.map field).drop (i + 1)).flatMap (' ' :: ·) := by
  rw [toList_tapeLine]
  exact drop_intercalate length_field_of_mem (getElem?_map_window field h)

/-- **A cell's value stands in three columns**, at their right end. -/
theorem aligned_tapeLine (h : i < (t.window cells).length) :
    Aligned 3 (((tapeLine t cells).toList.drop (4 * i)).take 3) (t.cell i).toNat := by
  have hfield := aligned_field (t.cell i)
  rw [drop_tapeLine h, List.take_left' hfield.1]
  exact hfield

/-- The last of them holds the last digit. -/
theorem getElem?_tapeLine_last (h : i < (t.window cells).length) :
    (tapeLine t cells).toList[4 * i + 2]? = some (Nat.digitChar ((t.cell i).toNat % 10)) := by
  have hfield := aligned_field (t.cell i)
  have hlast := hfield.getLast?
  rw [List.getLast?_eq_getElem?, hfield.1] at hlast
  rw [← List.getElem?_drop, drop_tapeLine h, List.getElem?_append_left (by rw [hfield.1]; decide)]
  exact hlast

/-- A space stands between two cells, and nothing behind the last one. -/
theorem getElem?_tapeLine_between (h : i < (t.window cells).length) :
    (tapeLine t cells).toList[4 * i + 3]?
      = if i + 1 < (t.window cells).length then some ' ' else none := by
  have hfield := aligned_field (t.cell i)
  rw [← List.getElem?_drop, drop_tapeLine h,
    List.getElem?_append_right (Nat.le_of_eq hfield.1), hfield.1]
  by_cases hnext : i + 1 < (t.window cells).length
  · rw [if_pos hnext, List.drop_eq_getElem_cons (by rwa [List.length_map, Tape.length_toList])]
    rfl
  · rw [if_neg hnext, List.drop_eq_nil_of_le]
    · rfl
    · rw [List.length_map, Tape.length_toList]
      omega

/-- A cell's character stands below the last digit of its value. -/
theorem getElem?_charLine (h : i < (t.window cells).length) :
    (charLine t cells).toList[4 * i + 2]? = some (cellChar (t.cell i)) := by
  have hwidth : ∀ f ∈ (t.window cells).toList.map charField, f.length = 3 :=
    List.forall_mem_map.mpr fun b _ => rfl
  rw [toList_charLine, ← List.getElem?_drop,
    drop_intercalate hwidth (getElem?_map_window charField h)]
  rfl

/-- **The values can be read off the line.** -/
theorem tapeLine_inj {u : Tape} {shown : Int} (h : tapeLine t cells = tapeLine u shown) :
    t.window cells = u.window shown := by
  have hchars : [' '].intercalate ((t.window cells).toList.map field)
      = [' '].intercalate ((u.window shown).toList.map field) := by
    rw [← toList_tapeLine, h, toList_tapeLine]
  have hfields := intercalate_inj (by decide) length_field_of_mem length_field_of_mem hchars
  have hcells : (t.window cells).toList = (u.window shown).toList := by
    refine (List.map_inj_right fun b c hbc => ?_).mp hfields
    refine UInt8.toNat_inj.mp ((aligned_field b).unique ?_)
    rw [hbc]
    exact aligned_field c
  unfold Tape.toList at hcells
  generalize t.window cells = w at hcells ⊢
  generalize u.window shown = v at hcells ⊢
  rcases w with ⟨⟨w⟩⟩
  rcases v with ⟨⟨v⟩⟩
  exact congrArg _ (congrArg _ (Array.toList_inj.mp hcells))

end Cells

/-! ### Carets -/

/-- The only caret stands behind the spaces. -/
theorem getElem?_caretAt (columns k : Nat) :
    (caretAt columns).toList[k]? = some '^' ↔ k = columns := by
  have hline : (caretAt columns).toList = List.replicate columns ' ' ++ ['^'] := by
    rw [caretAt, String.toList_append, toList_spaces]
    rfl
  rw [hline, List.getElem?_append, List.length_replicate]
  split
  · next h =>
    rw [List.getElem?_replicate, if_pos h]
    constructor
    · intro hspace
      exact absurd hspace (by decide)
    · omega
  · rw [List.getElem?_singleton]
    split
    · simp only [true_iff]
      omega
    · simp only [reduceCtorEq, false_iff]
      omega

theorem getElem?_caretLine (pointer k : Nat) :
    (caretLine pointer).toList[k]? = some '^' ↔ k = 4 * pointer + 2 := by
  rw [caretLine, getElem?_caretAt, cellWidth, Nat.mul_comm]

/-- The caret line of a step is one whose caret is moved to the right by the head of the step's line. -/
theorem stepCaret?_eq_some_iff {n : Int} {r : StepRecord} {cells : Int} {line : String} :
    stepCaret? n r cells = some line ↔ r.after.pointer < cells ∧
      line = caretAt ((stepHead n r).length + (4 * r.after.pointer + 2)) := by
  have hline : spaces (stepHead n r).length ++ caretLine r.after.pointer
      = caretAt ((stepHead n r).length + (4 * r.after.pointer + 2)) := by
    rw [caretLine, caretAt, caretAt, ← String.append_assoc, cellWidth, Nat.mul_comm, ← String.toList_inj]
    simp only [String.toList_append, toList_spaces, List.replicate_append_replicate]
  unfold stepCaret?
  split
  · next h =>
    simp only [reduceCtorEq, false_iff, not_and]
    omega
  · next h =>
    rw [hline, Option.some.injEq, eq_comm]
    exact ⟨fun heq => ⟨Int.lt_of_not_ge h, heq⟩, fun heq => heq.2⟩

/-- A column behind the head of a step's line is one of the line of values. -/
theorem getElem?_stepLine (n : Int) (r : StepRecord) (cells : Int) (k : Nat) :
    (stepLine n r cells).toList[(stepHead n r).length + k]?
      = (tapeLine r.after.tape cells).toList[k]? := by
  have hle : (stepHead n r).toList.length ≤ (stepHead n r).length + k := by
    rw [String.length_toList]
    omega
  rw [stepLine, String.toList_append, List.getElem?_append_right hle, String.length_toList,
    Nat.add_sub_cancel_left]

/-- Behind the head of a step's line stands the line of values. -/
theorem drop_stepLine (n : Int) (r : StepRecord) (cells : Int) (k : Nat) :
    (stepLine n r cells).toList.drop ((stepHead n r).length + k)
      = (tapeLine r.after.tape cells).toList.drop k := by
  apply List.ext_getElem?
  intro i
  rw [List.getElem?_drop, List.getElem?_drop, Nat.add_assoc, getElem?_stepLine]

/-! ### Bytes and columns -/

theorem printable_spaced {parts : List String} (h : ∀ s ∈ parts, Printable s) :
    Printable (spaced parts) := by
  intro c hc
  rw [toList_spaced] at hc
  exact forall_mem_intercalate (List.forall_mem_singleton.mpr (by decide)) (List.forall_mem_map.mpr h) c hc

theorem printable_tapeLine (t : Tape) (cells : Int) : Printable (tapeLine t cells) :=
  printable_spaced (List.forall_mem_map.mpr fun _ _ => printable_padLeft (printable_decimal _) 3)

theorem printable_caretAt (columns : Nat) : Printable (caretAt columns) :=
  printable_append (printable_spaces columns) (by decide)

theorem printable_symbol (c : Command) : Printable c.symbol := by
  cases c <;> decide

theorem printable_stepHead (n : Int) (r : StepRecord) : Printable (stepHead n r) := by
  have hstep : Printable "step " := by decide
  have hopen : Printable ": [" := by decide
  have hclose : Printable "] | tape: " := by decide
  have hnumber := printable_padLeft (printable_decimalInt n) 4
  unfold stepHead
  exact printable_append (printable_append (printable_append (printable_append hstep hnumber) hopen)
    (printable_symbol r.command)) hclose

theorem printable_stepLine (n : Int) (r : StepRecord) (cells : Int) : Printable (stepLine n r cells) :=
  printable_append (printable_stepHead n r) (printable_tapeLine _ _)

/-- A column that fits into a 64-bit word does not wrap around. -/
theorem caretLine?_ofNat {i : Nat} (h : 4 * i + 2 < 2 ^ 63) :
    caretLine? (.ofNat i) = some (caretLine i) := by
  have hcolumn : Int64.ofNat i * 4 + 2 = Int64.ofNat (i * cellWidth + 2) := by
    rw [Int64.ofNat_add, Int64.ofNat_mul]
    rfl
  have hlt : i * cellWidth + 2 < 2 ^ 63 := by
    rw [cellWidth]
    omega
  have hpos : ¬ Int64.ofNat (i * cellWidth + 2) < 0 := by
    rw [Int64.lt_iff_toInt_lt, Int64.toInt_ofNat_of_lt hlt]
    exact Int.not_lt.mpr (Int.natCast_nonneg _)
  rw [caretLine?, hcolumn, if_neg hpos, Int64.toNatClampNeg_ofNat_of_lt hlt]
  rfl

/-! ### Steps of machines -/

/-- The pointer of a step's state is on its tape, whatever calls led to the step. -/
theorem pointer_lt_of_mem_records {p : Program} {length : Int} {input : Bytes} {m : Machine}
    (hstart : Machine.new? p length input = some m) {calls : List Call} {r : StepRecord}
    (hr : r ∈ records (eventsOf (performAll calls m).1)) :
    r.after.pointer < r.after.tape.length := by
  obtain ⟨before, after, hbefore, hstep⟩ := (path_performAll calls m).exists_of_mem_records
    (P := Machine.OnTape) (fun _ => Machine.OnTape.attempt) (fun _ _ hm => hm)
    (Machine.onTape_of_new? hstart) r hr
  have hafter : after.OnTape := by
    have hattempt := hbefore.attempt
    rwa [← Machine.step_snd, hstep] at hattempt
  obtain ⟨-, -, -, -, hrecord⟩ := Machine.of_step_eq_stepped hstep
  rw [hrecord]
  exact hafter

/-- **Columns and carets line up.** A shown cell has its value in columns `4 * i` to `4 * i + 2`, at
their right end, a space behind it if another cell follows, its character in column `4 * i + 2` of the
line of characters and the only caret there in its caret line, also where the pointer is held in a
64-bit word. The values can be read off the line. In the caret line of a step that a machine takes, the
only caret is in the column of the step's line with the last digit of the cell under the pointer,
whatever the number of the step. All these lines but the one of characters have one byte to a column. -/
theorem columns_line_up :
    (∀ (t : Tape) (cells : Int) (i : Nat), i < (t.window cells).length →
      Aligned 3 (((tapeLine t cells).toList.drop (4 * i)).take 3) (t.cell i).toNat ∧
      (tapeLine t cells).toList[4 * i + 3]?
        = (if i + 1 < (t.window cells).length then some ' ' else none) ∧
      (charLine t cells).toList[4 * i + 2]? = some (cellChar (t.cell i)) ∧
      (∀ k, (caretLine i).toList[k]? = some '^' ↔ k = 4 * i + 2) ∧
      (4 * i + 2 < 2 ^ 63 → caretLine? (.ofNat i) = some (caretLine i))) ∧
    (∀ (t u : Tape) (cells shown : Int), tapeLine t cells = tapeLine u shown →
      t.window cells = u.window shown) ∧
    (∀ (p : Program) (length : Int) (input : Bytes) (m : Machine),
      Machine.new? p length input = some m →
      ∀ (calls : List Call), ∀ r ∈ records (eventsOf (performAll calls m).1),
      ∀ (n cells : Int) (line : String), stepCaret? n r cells = some line →
        ∃ start, (∀ k, line.toList[k]? = some '^' ↔ k = start + 2) ∧
          start = (stepHead n r).length + 4 * r.after.pointer ∧
          Aligned 3 (((stepLine n r cells).toList.drop start).take 3) r.after.cell.toNat ∧
          (stepLine n r cells).toList[start + 2]?
            = some (Nat.digitChar (r.after.cell.toNat % 10))) ∧
    ∀ line, ((∃ t cells, line = tapeLine t cells) ∨ (∃ i, line = caretLine i) ∨
        (∃ n r cells, line = stepLine n r cells ∨ stepCaret? n r cells = some line)) →
      utf8 line = line.toList.map fun c => UInt8.ofNat c.toNat := by
  refine ⟨?_, fun t u cells shown h => tapeLine_inj h, ?_, ?_⟩
  · intro t cells i h
    exact ⟨aligned_tapeLine h, getElem?_tapeLine_between h, getElem?_charLine h,
      getElem?_caretLine i, caretLine?_ofNat⟩
  · intro p length input m hstart calls r hr n cells line hline
    obtain ⟨hshown, rfl⟩ := stepCaret?_eq_some_iff.mp hline
    -- the caret shows only where the cell under the pointer is one of those on the line
    have hpointer := pointer_lt_of_mem_records hstart hr
    have hwindow : r.after.pointer < (r.after.tape.window cells).length := by
      rw [Tape.length_window, Tape.windowLength, if_neg (by omega)]
      omega
    refine ⟨_, fun k => ?_, rfl, ?_, ?_⟩
    · rw [getElem?_caretAt, Nat.add_assoc]
    · rw [drop_stepLine]
      exact aligned_tapeLine hwindow
    · rw [Nat.add_assoc, getElem?_stepLine]
      exact getElem?_tapeLine_last hwindow
  · intro line hline
    refine utf8_of_printable ?_
    rcases hline with ⟨t, cells, rfl⟩ | ⟨i, rfl⟩ | ⟨n, r, cells, rfl | hcaret⟩
    · exact printable_tapeLine t cells
    · exact printable_caretAt _
    · exact printable_stepLine n r cells
    · rw [(stepCaret?_eq_some_iff.mp hcaret).2]
      exact printable_caretAt _

/-- A step that takes the second cell from 0 to 255, with a number that is wider than its field. -/
theorem columns_line_up_behind_wide_number :
    ∃ p m r line, Program.load [62, 45] = .ok p ∧ Machine.new? p 2 [] = some m ∧
      r ∈ records (eventsOf (performAll [.steps 2] m).1) ∧ stepCaret? 123456 r 2 = some line ∧
      (∀ k, line.toList[k]? = some '^' ↔ k = 31) ∧
      (stepLine 123456 r 2).toList[31]? = some '5' := by
  have hload : Program.load [62, 45]
      = .ok ⟨#[.moveRight, .decrement], #[0, 1], #[none, none]⟩ := rfl
  have hstart : Machine.new? ⟨#[.moveRight, .decrement], #[0, 1], #[none, none]⟩ 2 [] = some _ := rfl
  obtain ⟨r, hr, hcommand, hafter⟩ : ∃ r, r ∈ records (eventsOf (performAll [.steps 2]
      (.start ⟨#[.moveRight, .decrement], #[0, 1], #[none, none]⟩ 2 [])).1) ∧
      r.command = .decrement ∧ r.after = ⟨.ofList [0, 255], 1, 2, []⟩ :=
    ⟨⟨⟨.ofList [0, 0], 1, 1, []⟩, ⟨.ofList [0, 255], 1, 2, []⟩, .decrement, 1⟩,
      List.mem_cons_of_mem _ List.mem_cons_self, rfl, rfl⟩
  have hhead : (stepHead 123456 r).length = 25 := by
    rw [stepHead, hcommand]
    decide
  have hpointer : r.after.pointer = 1 := by rw [hafter]
  have hcell : r.after.cell = 255 := by
    rw [hafter]
    rfl
  have hline : stepCaret? 123456 r 2 = some (spaces 25 ++ caretLine 1) := by
    rw [stepCaret?, hhead, hpointer, if_neg (by decide)]
  obtain ⟨start, hcaret, rfl, -, hdigit⟩ :=
    columns_line_up.2.2.1 _ 2 [] _ hstart [.steps 2] r hr 123456 2 _ hline
  rw [hhead, hpointer] at hcaret hdigit
  rw [hcell] at hdigit
  exact ⟨_, _, r, _, hload, hstart, hr, hline, hcaret, hdigit⟩

end TapeMachine.Display
