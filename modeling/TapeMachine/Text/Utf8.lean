/-
Characters in byte strings that may be malformed.

* `Utf8.next` splits the first character off a byte string, or its first byte if no character
  begins there;
* `Utf8.runes` reads a whole byte string, and `Utf8.encode` writes it back, losing nothing;
* `Utf8.replaceInvalid` puts the replacement character in the place of every stray byte.
-/
import TapeMachine.Text.Bytes

namespace TapeMachine

/-- A character of a byte string, or a byte that belongs to none. -/
inductive Rune where
  | char (c : Char)
  | stray (b : UInt8)
deriving DecidableEq, Repr

namespace Utf8

/-- Whether a byte continues a character. -/
def isTail (b : UInt8) : Bool :=
  0x80 ≤ b && b ≤ 0xBF

/-- Whether `b` may stand behind the first byte `a` of a character of several bytes. -/
def isSecond (a b : UInt8) : Bool :=
  if a = 0xE0 then 0xA0 ≤ b && b ≤ 0xBF
  else if a = 0xED then 0x80 ≤ b && b ≤ 0x9F
  else if a = 0xF0 then 0x90 ≤ b && b ≤ 0xBF
  else if a = 0xF4 then 0x80 ≤ b && b ≤ 0x8F
  else isTail b

/-- The low bits of a byte that continues a character. -/
def low (b : UInt8) : Nat :=
  b.toNat % 64

/-- Splits the first character off, if one begins there. -/
def nextChar? : Bytes → Option (Char × Bytes)
  | [] => none
  | a :: rest =>
    if a < 0x80 then some (Char.ofNat a.toNat, rest)
    else if 0xC2 ≤ a ∧ a ≤ 0xDF then
      match rest with
      | b :: rest =>
        if isTail b then some (Char.ofNat (a.toNat % 32 * 64 + low b), rest) else none
      | [] => none
    else if 0xE0 ≤ a ∧ a ≤ 0xEF then
      match rest with
      | b :: c :: rest =>
        if isSecond a b && isTail c then
          some (Char.ofNat (a.toNat % 16 * 4096 + low b * 64 + low c), rest)
        else none
      | _ => none
    else if 0xF0 ≤ a ∧ a ≤ 0xF4 then
      match rest with
      | b :: c :: d :: rest =>
        if isSecond a b && isTail c && isTail d then
          some (Char.ofNat (a.toNat % 8 * 262144 + low b * 4096 + low c * 64 + low d), rest)
        else none
      | _ => none
    else none

theorem length_of_nextChar? {s rest : Bytes} {c : Char} (h : nextChar? s = some (c, rest)) :
    rest.length < s.length := by
  unfold nextChar? at h
  split at h
  · simp at h
  · grind

/-- Splits the first character or stray byte off. -/
def next : Bytes → Option (Rune × Bytes)
  | [] => none
  | a :: rest =>
    match nextChar? (a :: rest) with
    | some (c, rest) => some (.char c, rest)
    | none => some (.stray a, rest)

theorem length_of_next {s rest : Bytes} {r : Rune} (h : next s = some (r, rest)) :
    rest.length < s.length := by
  unfold next at h
  split at h
  · simp at h
  · split at h
    · next heq =>
      simp only [Option.some.injEq, Prod.mk.injEq] at h
      exact h.2 ▸ length_of_nextChar? heq
    · simp only [Option.some.injEq, Prod.mk.injEq] at h
      simp [h.2]

/-- The characters and stray bytes of a byte string. -/
def runes (s : Bytes) : List Rune :=
  match _h : next s with
  | none => []
  | some (r, rest) => r :: runes rest
termination_by s.length
decreasing_by exact length_of_next _h

/-- The bytes of a character. -/
def encodeChar (c : Char) : Bytes :=
  String.utf8EncodeChar c

/-- The bytes of a character or stray byte. -/
def encodeRune : Rune → Bytes
  | .char c => encodeChar c
  | .stray b => [b]

/-- The bytes of a sequence of characters and stray bytes. -/
def encode (rs : List Rune) : Bytes :=
  rs.flatMap encodeRune

/-- The character that stands for a stray byte. -/
def replacement : Char :=
  Char.ofNat 0xFFFD

/-- The character of a rune, a stray byte counting as the replacement character. -/
def Rune.toChar : Rune → Char
  | .char c => c
  | .stray _ => replacement

/-- The characters of a byte string, with the replacement character for every stray byte. -/
def replaceInvalid (s : Bytes) : List Char :=
  (runes s).map Rune.toChar

/-- Whether a character is white space. -/
def isBlank (c : Char) : Bool :=
  let n := c.toNat
  9 ≤ n && n ≤ 13 || n = 0x20 || n = 0x85 || n = 0xA0 || n = 0x1680 || 0x2000 ≤ n && n ≤ 0x200A ||
    n = 0x2028 || n = 0x2029 || n = 0x202F || n = 0x205F || n = 0x3000

/-- Whether a rune is white space. -/
def isBlankRune : Rune → Bool
  | .char c => isBlank c
  | .stray _ => false

/-- Drops the white space at both ends. -/
def trim (s : Bytes) : Bytes :=
  let rs := (runes s).dropWhile isBlankRune
  encode (rs.reverse.dropWhile isBlankRune).reverse

end Utf8

end TapeMachine
