/-
Output reads back.

An output is shown byte by byte, in printable ASCII with tabs and line feeds. Where it has no backslash of
its own, a backslash in what is shown begins the escape of a byte, so that decoding the escapes gives the
output back, and no two outputs are shown alike.

* `Shown`: the bytes that are shown as they are, which are also all that is used to show the others;
* `items_output`, `decode_output`: what is shown is a sequence of items for the bytes of the output;
* `output_inj`: an output is determined by what is shown.
-/
import TapeMachine.Display.Tape
import TapeMachine.Proofs.Text.Escapes
import TapeMachine.Proofs.Text.Layout

namespace TapeMachine.Display

open Escapes (decode Item Items IsDigit Escape)
open Utf8 (encodeChar)

/-- The byte is printable ASCII, a line feed or a tab. -/
def Shown (b : UInt8) : Prop :=
  b = 10 ∨ b = 9 ∨ (32 ≤ b ∧ b ≤ 126)

instance (b : UInt8) : Decidable (Shown b) := by
  unfold Shown
  infer_instance

theorem Shown.lt {b : UInt8} (h : Shown b) : b.toNat < 128 := by
  rcases h with rfl | rfl | h
  · decide
  · decide
  · have hle := UInt8.le_iff_toNat_le.mp h.2
    exact Nat.lt_of_le_of_lt hle (by decide)

/-- The bytes that show an output byte. -/
def shownAs (b : UInt8) : Bytes :=
  (outputByte b).flatMap encodeChar

theorem utf8_output (out : Bytes) : utf8 (output out) = out.flatMap shownAs := by
  rw [output, utf8_ofList, List.flatMap_assoc]
  rfl

theorem shownAs_of_shown {b : UInt8} (h : Shown b) : shownAs b = [b] := by
  have hlt := h.lt
  unfold Shown at h
  rw [shownAs, outputByte, if_pos h, List.flatMap_singleton, Utf8.encodeChar_one hlt]

theorem hexDigit_lt {d : Nat} (h : d < 16) : (hexDigit d).toNat < 128 := by
  have hall : ∀ d < 16, (hexDigit d).toNat < 128 := by decide
  exact hall d h

theorem isDigit_hexDigit {d : Nat} (h : d < 16) : IsDigit 16 (hexDigit d).toUInt8 d := by
  have hall : ∀ d < 16, Escapes.hexValue? (hexDigit d).toUInt8 = some d := by decide
  exact Escapes.isDigit_sixteen_iff.mpr (hall d h)

theorem shownAs_of_not_shown {b : UInt8} (h : ¬ Shown b) :
    shownAs b = ['\\'.toUInt8, 'x'.toUInt8, (hexDigit (b.toNat / 16)).toUInt8,
      (hexDigit (b.toNat % 16)).toUInt8] := by
  have hlt := b.toNat_lt
  have hhigh := Utf8.encodeChar_of_lt (hexDigit_lt (show b.toNat / 16 < 16 by omega))
  have hlow := Utf8.encodeChar_of_lt (hexDigit_lt (show b.toNat % 16 < 16 by omega))
  unfold Shown at h
  rw [shownAs, outputByte, if_neg h]
  simp only [List.flatMap_cons, List.flatMap_nil, hhigh, hlow]
  rfl

/-- The character is printable ASCII, a line feed or a tab. -/
def IsShown (c : Char) : Prop :=
  c = '\n' ∨ c = '\t' ∨ (32 ≤ c.toNat ∧ c.toNat ≤ 126)

instance (c : Char) : Decidable (IsShown c) := by
  unfold IsShown
  infer_instance

theorem IsShown.shown {c : Char} (h : IsShown c) : c.toNat < 128 ∧ Shown (UInt8.ofNat c.toNat) := by
  rcases h with rfl | rfl | h
  · decide
  · decide
  · have hlt : c.toNat < 128 := by omega
    refine ⟨hlt, .inr (.inr ?_)⟩
    rw [UInt8.le_iff_toNat_le, UInt8.le_iff_toNat_le, Utf8.toNat_ofNat_of_lt (by omega)]
    exact h

/-- **What is shown is printable** ASCII, line feeds and tabs. -/
theorem isShown_of_mem_output {out : Bytes} {c : Char} (h : c ∈ (output out).toList) : IsShown c := by
  rw [output, String.toList_ofList, List.mem_flatMap] at h
  obtain ⟨b, -, hc⟩ := h
  have hlt := b.toNat_lt
  unfold outputByte at hc
  split at hc
  · next hb =>
    rw [List.mem_singleton] at hc
    rw [hc]
    rcases hb with rfl | rfl | hb
    · decide
    · decide
    · have hvalid : b.toNat.isValidChar := .inl (by omega)
      rw [UInt8.le_iff_toNat_le, UInt8.le_iff_toNat_le] at hb
      refine .inr (.inr ?_)
      rw [Char.toNat, Utf8.toNat_val_ofNat hvalid]
      exact hb
  · -- any other byte is written with a backslash and two digits
    have hall : ∀ d < 16, IsShown (hexDigit d) := by decide
    simp only [List.mem_cons, List.not_mem_nil, or_false] at hc
    rcases hc with rfl | rfl | rfl | rfl
    · decide
    · decide
    · exact hall _ (by omega)
    · exact hall _ (by omega)

theorem shown_of_mem_output {out : Bytes} {b : UInt8} (h : b ∈ utf8 (output out)) : Shown b := by
  rw [utf8_of_lt fun c hc => (isShown_of_mem_output hc).shown.1, List.mem_map] at h
  obtain ⟨c, hc, rfl⟩ := h
  exact (isShown_of_mem_output hc).shown.2

/-- A byte is shown as an item that stands for it, unless it is a backslash. -/
theorem item_shownAs {b : UInt8} (hb : b ≠ '\\'.toUInt8) (behind : Bytes) :
    Item behind (shownAs b) [b] := by
  by_cases h : Shown b
  · rw [shownAs_of_shown h]
    exact .plain (UInt8.lt_iff_toNat_lt.mpr h.lt) hb
  · have hlt := b.toNat_lt
    have hvalue : b = UInt8.ofNat (Nat.ofDigits 16 [b.toNat % 16, b.toNat / 16]) := by
      rw [Nat.ofDigits_cons, Nat.ofDigits_singleton, Nat.mod_add_div, UInt8.ofNat_toNat]
    have hescape := Escape.hexByte (t := [(hexDigit (b.toNat / 16)).toUInt8,
      (hexDigit (b.toNat % 16)).toUInt8]) rfl
      ⟨[b.toNat / 16, b.toNat % 16], .cons (isDigit_hexDigit (by omega))
        (.cons (isDigit_hexDigit (by omega)) .nil), rfl⟩
    rw [shownAs_of_not_shown h]
    rw [List.reverse_cons, List.reverse_singleton, List.singleton_append, ← hvalue] at hescape
    exact .escape hescape

theorem items_output {out : Bytes} (h : '\\'.toUInt8 ∉ out) : Items [] (utf8 (output out)) out := by
  rw [utf8_output]
  induction out with
  | nil => exact .nil
  | cons b out ih =>
    rw [List.mem_cons, not_or] at h
    exact .cons (item_shownAs (Ne.symm h.1) _) (ih h.2)

/-- **Decoding what is shown gives the output back.** -/
theorem decode_output {out : Bytes} (h : '\\'.toUInt8 ∉ out) : decode (utf8 (output out)) = .ok out :=
  Escapes.decode_eq_ok_iff.mpr (items_output h)

/-- No two outputs are shown by the same bytes. -/
theorem utf8_output_inj {a b : Bytes} (ha : '\\'.toUInt8 ∉ a) (hb : '\\'.toUInt8 ∉ b)
    (h : utf8 (output a) = utf8 (output b)) : a = b := by
  have hdecode := decode_output ha
  rw [h, decode_output hb, Except.ok.injEq] at hdecode
  exact hdecode.symm

theorem output_inj {a b : Bytes} (ha : '\\'.toUInt8 ∉ a) (hb : '\\'.toUInt8 ∉ b)
    (h : output a = output b) : a = b :=
  utf8_output_inj ha hb (congrArg utf8 h)

end TapeMachine.Display
