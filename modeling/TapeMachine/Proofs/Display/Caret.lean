/-
The caret of a step.

The line of a step shows the first cells of the tape, and all of them if the number of cells that is asked
for is not positive. The caret goes by that number alone. So if the number is positive, the caret is drawn
exactly when the cell under the pointer is on the line; else the cell is on the line without a caret.

* `ShowsCell`: the line of a step shows a cell;
* `showsCell_iff`: it shows the cells of the window and no others;
* `caret_below_shown_cell`: when the caret is drawn, for the steps of all machines.
-/
import TapeMachine.Proofs.Display.Columns

namespace TapeMachine.Display

/-- The line of step `n` shows the cell `i`: in the three columns of the cell stands its value. -/
def ShowsCell (n : Int) (r : StepRecord) (cells : Int) (i : Nat) : Prop :=
  Aligned 3 (((stepLine n r cells).toList.drop ((stepHead n r).length + 4 * i)).take 3)
    (r.after.tape.cell i).toNat

/-- The line of values ends behind the last cell of the window. -/
theorem drop_tapeLine_of_le {t : Tape} {cells : Int} {i : Nat} (h : (t.window cells).length ≤ i) :
    (tapeLine t cells).toList.drop (4 * i) = [] := by
  refine List.drop_eq_nil_of_le ?_
  have hfields : ∀ f ∈ (t.window cells).toList.map field, f.length = 3 := length_field_of_mem
  have hlength : ([' '].intercalate ((t.window cells).toList.map field)).length
      ≤ (3 + 1) * ((t.window cells).toList.map field).length := length_intercalate_le hfields
  rw [List.length_map, Tape.length_toList] at hlength
  rw [toList_tapeLine]
  omega

/-- **A step's line shows the cells of the window** and no others. -/
theorem showsCell_iff {n : Int} {r : StepRecord} {cells : Int} {i : Nat} :
    ShowsCell n r cells i ↔ i < (r.after.tape.window cells).length := by
  rw [ShowsCell, drop_stepLine]
  constructor
  · rintro ⟨hlength, -⟩
    rcases Nat.lt_or_ge i (r.after.tape.window cells).length with hshown | hpast
    · exact hshown
    · rw [drop_tapeLine_of_le hpast] at hlength
      exact absurd hlength (by decide)
  · exact aligned_tapeLine

theorem caretAt_ne_empty (columns : Nat) : caretAt columns ≠ "" := by
  intro h
  have hcaret := (getElem?_caretAt columns columns).mpr rfl
  rw [h] at hcaret
  exact absurd hcaret (by simp)

/-- No caret is drawn iff the pointer is not below the number of cells that is asked for. -/
theorem stepCaret?_eq_empty_iff {n : Int} {r : StepRecord} {cells : Int} :
    (stepCaret? n r cells).getD "" = "" ↔ cells ≤ r.after.pointer := by
  rcases Int.lt_or_le r.after.pointer cells with hlt | hge
  · rw [stepCaret?_eq_some_iff.mpr ⟨hlt, rfl⟩, Option.getD_some]
    exact ⟨fun h => absurd h (caretAt_ne_empty _), fun h => absurd hlt (Int.not_lt.mpr h)⟩
  · rw [stepCaret?, if_pos hge, Option.getD_none]
    exact ⟨fun _ => hge, fun _ => rfl⟩

/-- **The caret is drawn below a cell that is shown.** For every step of a machine, every number of the
step and every positive number of cells, the line of the caret is not empty iff the step's line shows the
cell under the pointer. If the number of cells is zero or negative, the step's line shows the whole tape
and so the cell under the pointer, but the line of the caret is empty. -/
theorem caret_below_shown_cell {p : Program} {length : Int} {input : Bytes} {m : Machine}
    (hstart : Machine.new? p length input = some m) (calls : List Call) {r : StepRecord}
    (hr : r ∈ records (eventsOf (performAll calls m).1)) (n cells : Int) :
    (0 < cells →
      ((stepCaret? n r cells).getD "" ≠ "" ↔ ShowsCell n r cells r.after.pointer)) ∧
      (cells ≤ 0 →
        (stepCaret? n r cells).getD "" = "" ∧ ShowsCell n r cells r.after.pointer) := by
  have hpointer := pointer_lt_of_mem_records hstart hr
  rw [showsCell_iff, Tape.length_window, Tape.windowLength]
  constructor
  · intro hpos
    rw [Ne, stepCaret?_eq_empty_iff, if_neg (by omega)]
    omega
  · intro hnonpos
    rw [stepCaret?_eq_empty_iff, if_pos hnonpos]
    exact ⟨by omega, hpointer⟩

/-- A step onto the second of three cells, reported with two cells, with one and with none. -/
theorem caret_below_shown_cell_of_second :
    ∃ p m r, Program.load [43, 62, 43] = .ok p ∧ Machine.new? p 3 [] = some m ∧
      r ∈ records (eventsOf (performAll [.steps 3] m).1) ∧ r.after.pointer = 1 ∧
      ((stepCaret? 2 r 2).getD "" ≠ "" ∧ ShowsCell 2 r 2 1) ∧
      ((stepCaret? 2 r 1).getD "" = "" ∧ ¬ ShowsCell 2 r 1 1) ∧
      ((stepCaret? 2 r 0).getD "" = "" ∧ ShowsCell 2 r 0 1) := by
  have hload : Program.load [43, 62, 43]
      = .ok ⟨#[.increment, .moveRight, .increment], #[0, 1, 2], #[none, none, none]⟩ := rfl
  have hstart : Machine.new? ⟨#[.increment, .moveRight, .increment], #[0, 1, 2],
      #[none, none, none]⟩ 3 [] = some _ := rfl
  obtain ⟨r, hr, hafter⟩ : ∃ r, r ∈ records (eventsOf (performAll [.steps 3]
      (.start ⟨#[.increment, .moveRight, .increment], #[0, 1, 2], #[none, none, none]⟩ 3 [])).1) ∧
      r.after = ⟨.ofList [1, 0, 0], 1, 2, []⟩ :=
    ⟨⟨⟨.ofList [1, 0, 0], 0, 1, []⟩, ⟨.ofList [1, 0, 0], 1, 2, []⟩, .moveRight, 1⟩,
      List.mem_cons_of_mem _ List.mem_cons_self, rfl⟩
  have hpointer : r.after.pointer = 1 := by rw [hafter]
  have htwo := (caret_below_shown_cell hstart [.steps 3] hr 2 2).1 (by decide)
  have hone := (caret_below_shown_cell hstart [.steps 3] hr 2 1).1 (by decide)
  have hnone := (caret_below_shown_cell hstart [.steps 3] hr 2 0).2 (Int.le_refl 0)
  rw [hpointer] at htwo hone hnone
  have hshown : (stepCaret? 2 r 2).getD "" ≠ "" := by
    rw [Ne, stepCaret?_eq_empty_iff, hpointer]
    decide
  have hhidden : (stepCaret? 2 r 1).getD "" = "" := by
    rw [stepCaret?_eq_empty_iff, hpointer]
    decide
  exact ⟨_, _, r, hload, hstart, hr, hpointer, ⟨hshown, htwo.mp hshown⟩,
    ⟨hhidden, fun h => hone.mpr h hhidden⟩, hnone⟩

end TapeMachine.Display
