/-
Tapes as lists of cell values.

Every operation on tapes is an operation on the list of cell values (`toList_set`, `toList_grow`,
`toList_first`), and a cell is read from that list with zeros past its end (`cell_eq`). From this
follow the laws of cells and lengths:

* `cell_set`, `cell_grow`, `cell_blank`, `cell_window`: what an operation does to the cells;
* `length_set`, `length_grow`, `length_blank`, `length_window`: what it does to the length.

Displays show the first cells of a tape. `Tape.window` says which: whatever shows a tape tests its number of
cells in its own way, and is proved to show the cells of the window.
-/
import TapeMachine.Machine.Tape

namespace TapeMachine.Tape

theorem length_toList (t : Tape) : t.toList.length = t.length := rfl

theorem toList_blank (n : Nat) : (blank n).toList = List.replicate n 0 :=
  Array.toList_replicate

theorem toList_grow (t : Tape) : t.grow.toList = t.toList ++ [0] :=
  Array.toList_push

theorem toList_set (t : Tape) (i : Nat) (b : UInt8) : (t.set i b).toList = t.toList.set i b := by
  unfold set
  split
  · next h => exact Array.toList_set t.cells.data i b h
  · next h => exact (List.set_eq_of_length_le (Nat.le_of_not_lt h)).symm

theorem toList_first (t : Tape) (n : Nat) : (t.first n).toList = t.toList.take n := by
  unfold first toList
  rw [ByteArray.data_extract, Array.toList_extract]
  simp

theorem first_length (t : Tape) : t.first t.length = t := by
  rw [first, length, ByteArray.extract_zero_size]

theorem cell_eq (t : Tape) (i : Nat) : t.cell i = t.toList[i]?.getD 0 := by
  unfold cell
  split
  · next h =>
    rw [List.getElem?_eq_getElem (show i < t.toList.length from h)]
    rfl
  · next h =>
    rw [List.getElem?_eq_none (show t.toList.length ≤ i from Nat.le_of_not_lt h)]
    rfl

/-! ### Windows -/

/-- The number of cells that a display of `cells` cells shows of a tape of `length` cells: zero, a
negative number and a number past the end all mean the whole tape. -/
def windowLength (length : Nat) (cells : Int) : Nat :=
  if cells ≤ 0 then length else min cells.toNat length

/-- The first cells of the tape, as many as a display of `cells` cells shows. -/
def window (t : Tape) (cells : Int) : Tape :=
  t.first (windowLength t.length cells)

theorem windowLength_le (length : Nat) (cells : Int) : windowLength length cells ≤ length := by
  unfold windowLength
  split <;> omega

theorem toList_window (t : Tape) (cells : Int) :
    (t.window cells).toList = t.toList.take (windowLength t.length cells) :=
  t.toList_first _

/-- The test for a number past the end. -/
theorem windowLength_eq_ite (length : Nat) (cells : Int) :
    windowLength length cells = if cells ≤ 0 ∨ length < cells then length else cells.toNat := by
  unfold windowLength
  split <;> split <;> omega

/-- The first cells, counted by an integer that a test for a number past the end has passed. -/
theorem first_eq_window (t : Tape) (cells : Int) :
    t.first (if cells ≤ 0 ∨ t.length < cells then (t.length : Int) else cells).toNat
      = t.window cells := by
  rw [window, windowLength_eq_ite, apply_ite Int.toNat, Int.toNat_natCast]

/-- The test for a number that leaves cells out. -/
theorem window_eq_ite (t : Tape) (cells : Int) :
    t.window cells = if 0 < cells ∧ cells < t.length then t.first cells.toNat else t := by
  rw [window]
  split
  · next h => rw [windowLength_eq_ite, if_neg (by omega)]
  · next h =>
    have hwhole : windowLength t.length cells = t.length := by
      rw [windowLength]
      split <;> omega
    rw [hwhole, first_length]

/-! ### Lengths -/

@[simp] theorem length_blank (n : Nat) : (blank n).length = n := by
  rw [← length_toList, toList_blank, List.length_replicate]

@[simp] theorem length_grow (t : Tape) : t.grow.length = t.length + 1 := by
  rw [← length_toList, toList_grow, List.length_append, List.length_singleton, length_toList]

@[simp] theorem length_set (t : Tape) (i : Nat) (b : UInt8) : (t.set i b).length = t.length := by
  rw [← length_toList, toList_set, List.length_set, length_toList]

@[simp] theorem length_window (t : Tape) (cells : Int) :
    (t.window cells).length = windowLength t.length cells := by
  rw [← length_toList, toList_window, List.length_take, length_toList,
    Nat.min_eq_left (windowLength_le ..)]

/-! ### Cells -/

@[simp] theorem cell_blank (n i : Nat) : (blank n).cell i = 0 := by
  rw [cell_eq, toList_blank, List.getElem?_replicate]
  split <;> rfl

/-- The cells past the end read as zero. -/
theorem cell_of_length_le {t : Tape} {i : Nat} (h : t.length ≤ i) : t.cell i = 0 := by
  rw [cell_eq, List.getElem?_eq_none (by rwa [length_toList])]
  rfl

/-- A new cell cannot be told from the zeros past the end. -/
@[simp] theorem cell_grow (t : Tape) (i : Nat) : t.grow.cell i = t.cell i := by
  by_cases h : i < t.length
  · rw [cell_eq, cell_eq, toList_grow, List.getElem?_append_left (by rwa [length_toList])]
  · rw [cell_of_length_le (Nat.le_of_not_lt h), cell_eq, toList_grow,
      List.getElem?_append_right (by rw [length_toList]; omega)]
    rcases i - t.toList.length with _ | n <;> rfl

theorem cell_set {t : Tape} {i : Nat} (h : i < t.length) (b : UInt8) (j : Nat) :
    (t.set i b).cell j = if j = i then b else t.cell j := by
  rw [cell_eq, cell_eq, toList_set]
  by_cases hj : j = i
  · subst hj
    rw [List.getElem?_set_self (by rwa [length_toList]), if_pos rfl]
    rfl
  · rw [List.getElem?_set_ne (Ne.symm hj), if_neg hj]

/-- A window reads as the tape does as far as it was asked for, and as zero from there on. -/
theorem cell_window (t : Tape) (cells : Int) (i : Nat) :
    (t.window cells).cell i = if cells ≤ 0 ∨ i < cells.toNat then t.cell i else 0 := by
  by_cases h : i < windowLength t.length cells
  · have hshown : cells ≤ 0 ∨ i < cells.toNat := by
      unfold windowLength at h
      split at h <;> omega
    rw [if_pos hshown, cell_eq, cell_eq, toList_window, List.getElem?_take_of_lt h]
  · rw [cell_of_length_le (by rw [length_window]; omega)]
    split
    · next hshown =>
      have hpast : t.length ≤ i := by
        unfold windowLength at h
        split at h <;> omega
      rw [cell_of_length_le hpast]
    · rfl

end TapeMachine.Tape
