/-
Escapes in input text.

A text for the input queue stands for bytes: a backslash begins an escape for a control character, a
byte or a code point, and all else stands for itself.

* `Escapes.item?` reads the first item of a text;
* `Escapes.decode` reads a whole text, or gives the rest that begins with a wrong escape.
-/
import TapeMachine.Text.Quoted

namespace TapeMachine.Escapes

/-- The value of a hexadecimal digit of either case. -/
def hexValue? (c : UInt8) : Option Nat :=
  if 48 ≤ c ∧ c ≤ 57 then some (c.toNat - 48)
  else if 97 ≤ c ∧ c ≤ 102 then some (c.toNat - 87)
  else if 65 ≤ c ∧ c ≤ 70 then some (c.toNat - 55)
  else none

/-- The value of an octal digit. -/
def octalValue? (c : UInt8) : Option Nat :=
  if 48 ≤ c ∧ c ≤ 55 then some (c.toNat - 48) else none

/-- Reads exactly `count` digits of a base. -/
def digits? (value? : UInt8 → Option Nat) (base : Nat) : Nat → Nat → Bytes → Option (Nat × Bytes)
  | 0, n, s => some (n, s)
  | _ + 1, _, [] => none
  | count + 1, n, c :: s =>
    match value? c with
    | none => none
    | some d => digits? value? base count (n * base + d) s

/-- The control character of a one-letter escape. -/
def control? (c : UInt8) : Option UInt8 :=
  if c = 97 then some 7
  else if c = 98 then some 8
  else if c = 102 then some 12
  else if c = 110 then some 10
  else if c = 114 then some 13
  else if c = 116 then some 9
  else if c = 118 then some 11
  else if c = 92 then some 92
  else none

/-- Whether a number is the code point of a character. -/
def isCodePoint (n : Nat) : Bool :=
  n < 0xD800 || 0xDFFF < n && n ≤ 0x10FFFF

/-- The bytes of the character that `count` hexadecimal digits name. -/
def codePoint? (count : Nat) (s : Bytes) : Option (Bytes × Bytes) :=
  match digits? hexValue? 16 count 0 s with
  | none => none
  | some (n, rest) => if isCodePoint n then some (Utf8.encodeChar (Char.ofNat n), rest) else none

/-- The byte that `count` digits of a base name. -/
def byte? (value? : UInt8 → Option Nat) (base count : Nat) (s : Bytes) : Option (Bytes × Bytes) :=
  match digits? value? base count 0 s with
  | none => none
  | some (n, rest) => if n ≤ 255 then some ([n.toUInt8], rest) else none

/-- Reads an escape behind its backslash. -/
def escape? : Bytes → Option (Bytes × Bytes)
  | [] => none
  | c :: s =>
    match control? c with
    | some b => some ([b], s)
    | none =>
      if c = 120 then byte? hexValue? 16 2 s
      else if c = 117 then codePoint? 4 s
      else if c = 85 then codePoint? 8 s
      else byte? octalValue? 8 3 (c :: s)

/-- Reads the first item of a text: an escape, a character, or a stray byte, which stands for the
replacement character. -/
def item? : Bytes → Option (Bytes × Bytes)
  | [] => none
  | c :: s =>
    if c = 92 then escape? s
    else if c < 0x80 then some ([c], s)
    else (Utf8.next (c :: s)).map fun (r, rest) => (Utf8.encodeChar (Utf8.Rune.toChar r), rest)

theorem length_of_digits? {value? : UInt8 → Option Nat} {base count n m : Nat} {s rest : Bytes}
    (h : digits? value? base count n s = some (m, rest)) : rest.length ≤ s.length := by
  fun_induction digits? value? base count n s with
  | case1 => simp_all
  | case2 => simp at h
  | case3 => simp at h
  | case4 _ _ _ _ _ _ ih => exact Nat.le_succ_of_le (ih h)

theorem length_of_codePoint? {count : Nat} {s rest b : Bytes}
    (h : codePoint? count s = some (b, rest)) : rest.length ≤ s.length := by
  unfold codePoint? at h
  split at h
  · simp at h
  · next hd =>
    split at h <;> simp only [Option.some.injEq, Prod.mk.injEq, reduceCtorEq] at h
    exact h.2 ▸ length_of_digits? hd

theorem length_of_byte? {value? : UInt8 → Option Nat} {base count : Nat} {s rest b : Bytes}
    (h : byte? value? base count s = some (b, rest)) : rest.length ≤ s.length := by
  unfold byte? at h
  split at h
  · simp at h
  · next hd =>
    split at h <;> simp only [Option.some.injEq, Prod.mk.injEq, reduceCtorEq] at h
    exact h.2 ▸ length_of_digits? hd

theorem length_of_escape? {s rest b : Bytes} (h : escape? s = some (b, rest)) :
    rest.length ≤ s.length := by
  unfold escape? at h
  split at h
  · simp at h
  · split at h
    · simp only [Option.some.injEq, Prod.mk.injEq] at h
      simp [h.2]
    · split at h
      · exact Nat.le_succ_of_le (length_of_byte? h)
      · split at h
        · exact Nat.le_succ_of_le (length_of_codePoint? h)
        · split at h
          · exact Nat.le_succ_of_le (length_of_codePoint? h)
          · exact length_of_byte? h

theorem length_of_item? {s rest b : Bytes} (h : item? s = some (b, rest)) :
    rest.length < s.length := by
  unfold item? at h
  split at h
  · simp at h
  · split at h
    · exact Nat.lt_succ_of_le (length_of_escape? h)
    · split at h
      · simp only [Option.some.injEq, Prod.mk.injEq] at h
        simp [h.2]
      · obtain ⟨⟨r, rest'⟩, hr, heq⟩ := Option.map_eq_some_iff.1 h
        simp only [Prod.mk.injEq] at heq
        exact heq.2 ▸ Utf8.length_of_next hr

/-- The bytes that a text stands for, or the rest of the text from its first wrong escape on. -/
def decode (s : Bytes) : Except Bytes Bytes :=
  match s with
  | [] => .ok []
  | c :: s =>
    match _h : item? (c :: s) with
    | none => .error (c :: s)
    | some (b, rest) => (decode rest).map (b ++ ·)
termination_by s.length
decreasing_by simpa using length_of_item? _h

/-- The message for a text whose rest `rest` begins with a wrong escape. -/
def message (rest : Bytes) : Bytes :=
  utf8 "decode escapes in " ++ Quoted.quote rest ++ utf8 ": invalid syntax"

end TapeMachine.Escapes
