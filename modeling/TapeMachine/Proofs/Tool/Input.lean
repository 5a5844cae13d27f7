/-
Input without escapes.

A byte string without a backslash is read as the characters that it spells. Where it is a text it goes to
the machine as it is; where it is not, every stray byte comes out as the replacement character.

* `decode_of_not_mem`: what a byte string without a backslash is decoded to;
* `decode_eq_self_iff`: it is a text iff nothing happens to it;
* `plain_input_reaches_machine`: what the tool and the viewer do with it.
-/
import TapeMachine.Proofs.Machine.Queue
import TapeMachine.Proofs.Text.Escapes
import TapeMachine.Tool.Execute
import TapeMachine.Viewer.Model

namespace TapeMachine

open Utf8 (encodeChar)

namespace Utf8

/-- Writing the characters of a byte string gives it back iff it is a text. -/
theorem flatMap_replaceInvalid_eq_iff {s : Bytes} :
    (replaceInvalid s).flatMap encodeChar = s ↔ Valid s := by
  constructor
  · intro h
    exact ⟨replaceInvalid s, h.symm⟩
  · rintro ⟨cs, rfl⟩
    rw [replaceInvalid_flatMap_encodeChar]

end Utf8

namespace Escapes

/-- Without a backslash, the items are the characters and the stray bytes. -/
theorem item?_of_next {s rest : Bytes} {r : Rune} (hs : '\\'.toUInt8 ∉ s)
    (h : Utf8.next s = some (r, rest)) :
    item? s = some (encodeChar (Utf8.Rune.toChar r), rest) := by
  rcases s with _ | ⟨c, s⟩
  · cases h
  have hne : c ≠ 92 := fun hc => hs (hc ▸ List.mem_cons_self)
  rw [item?, if_neg hne]
  split
  · next hlt =>
    have hone := UInt8.lt_iff_toNat_lt.mp hlt
    rw [Utf8.next, Utf8.nextChar?_one hone] at h
    cases h
    rw [Utf8.Rune.toChar, Utf8.encodeChar_one hone]
  · rw [h]
    rfl

/-- **A byte string without a backslash is decoded** to the characters that it spells. -/
theorem decode_of_not_mem {s : Bytes} (hs : '\\'.toUInt8 ∉ s) :
    decode s = .ok ((Utf8.replaceInvalid s).flatMap encodeChar) := by
  unfold Utf8.replaceInvalid
  fun_induction Utf8.runes s with
  | case1 s h =>
    rcases s with _ | ⟨c, s⟩
    · exact decode_nil
    · rw [Utf8.next] at h
      split at h <;> cases h
  | case2 s r rest h ih =>
    have hrest : '\\'.toUInt8 ∉ rest := by
      intro hmem
      rw [← Utf8.encodeRune_of_next h] at hs
      exact hs (List.mem_append_right _ hmem)
    rw [decode_of_item? (item?_of_next hs h), ih hrest, List.map_cons, List.flatMap_cons]
    rfl

/-- Nothing happens to it iff it is a text. -/
theorem decode_eq_self_iff {s : Bytes} (hs : '\\'.toUInt8 ∉ s) : decode s = .ok s ↔ Utf8.Valid s := by
  rw [decode_of_not_mem hs, Except.ok.injEq, Utf8.flatMap_replaceInvalid_eq_iff]

end Escapes

namespace Tool

open Escapes (decode)

/-- **Input without a backslash reaches the machine as text.** The bytes are decoded to the characters
that they spell, with the replacement character for every stray byte, so that they are left alone iff
they are a text. They are then the input of the tool, with the standard input behind them if it is read,
and of every machine that is started with them: what its reads take, followed by what they leave, is
these bytes, followed by what it is fed. A line typed into the viewer, which is a text, is fed to the
machine as it is. -/
theorem plain_input_reaches_machine {s : Bytes} (hs : '\\'.toUInt8 ∉ s) :
    decode s = .ok ((Utf8.replaceInvalid s).flatMap encodeChar) ∧
    (decode s = .ok s ↔ Utf8.Valid s) ∧
    (∀ o : Options, o.input = s → ∀ stdin : Option StandardInput, (∀ i ∈ stdin, i.broken = false) →
      ∃ input, readInput o stdin = .ok input ∧
        input = (Utf8.replaceInvalid s).flatMap encodeChar ++ stdin.elim [] StandardInput.content ∧
        ∀ (p : Program) (length : Int) (m : Machine), Machine.new? p length input = some m →
          ∀ calls : List Call, (attemptedAll calls m).filterMap Machine.taken?
            ++ (performAll calls m).2.input = input ++ fedIn (eventsOf (performAll calls m).1)) ∧
    (∀ (m : Viewer.Model) (k : Viewer.KeyPress), m.inputting = true → k.key = .enter →
      utf8 (String.ofList m.prompt.value) = s →
      m.update (.key k) = ({ m with machine := m.machine.feed s }.closeInput, none)) := by
  have hdecode := Escapes.decode_of_not_mem hs
  refine ⟨hdecode, Escapes.decode_eq_self_iff hs, ?_, ?_⟩
  · rintro o rfl stdin hstdin
    refine ⟨_, ?_, rfl, ?_⟩
    · rcases stdin with _ | i
      · rw [readInput, hdecode]
        exact congrArg Except.ok (List.append_nil _).symm
      · have hread : i.broken = false := hstdin i rfl
        rw [readInput, hdecode]
        simp only [Except.mapError, bind, Except.bind, hread, Bool.false_eq_true, if_false]
        rfl
    · intro p length m hstart calls
      have hinput := congrArg Machine.input (Machine.eq_start_of_new? hstart)
      rw [(trail_performAll calls m).taken_append_input (Machine.onTape_of_new? hstart), hinput]
      rfl
  · intro m k hinputting hkey htyped
    have hvalid := (Escapes.decode_eq_self_iff hs).mpr (htyped ▸ valid_utf8 _)
    rw [Viewer.Model.update, if_pos hinputting, Viewer.Model.updateInput, hkey]
    dsimp only
    rw [Viewer.Model.submit, htyped, hvalid]

/-- A letter and a stray byte, with another letter on the standard input. -/
theorem plain_input_reaches_machine_but_for_stray_byte :
    '\\'.toUInt8 ∉ [0x61, 0xFF] ∧ decode [0x61, 0xFF] = .ok [0x61, 0xEF, 0xBF, 0xBD] ∧
      readInput { input := [0x61, 0xFF] } (some { content := [0x62] })
        = .ok [0x61, 0xEF, 0xBF, 0xBD, 0x62] := by
  have hs : '\\'.toUInt8 ∉ [0x61, 0xFF] := by decide
  have htext : (Utf8.replaceInvalid [0x61, 0xFF]).flatMap encodeChar = [0x61, 0xEF, 0xBF, 0xBD] := by
    decide +kernel
  obtain ⟨hdecode, -, htool, -⟩ := plain_input_reaches_machine hs
  obtain ⟨input, hread, hinput, -⟩ := htool { input := [0x61, 0xFF] } rfl
    (some { content := [0x62] }) (by simp)
  rw [htext] at hdecode hinput
  rw [hinput] at hread
  exact ⟨hs, hdecode, hread⟩

end Tool

end TapeMachine
