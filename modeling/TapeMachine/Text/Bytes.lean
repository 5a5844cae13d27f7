/-
Byte strings.

Sources, inputs, outputs, command words and messages are byte strings, because any of them may hold
bytes that form no character.

* `Bytes` is a list of bytes;
* `utf8` writes characters as bytes;
* `Bytes.joinWith`, `Bytes.split`, `padLeft`, `padRight` lay byte strings out;
* `hexByte`, `decimal`, `decimalInt` write numbers.
-/
namespace TapeMachine

/-- A byte string. -/
abbrev Bytes := List UInt8

/-- The bytes of a text in UTF-8. -/
def utf8 (s : String) : Bytes :=
  s.toUTF8.data.toList

namespace Bytes

/-- The text of a byte string, if the bytes are well-formed UTF-8. -/
def toString? (b : Bytes) : Option String :=
  String.fromUTF8? ⟨b.toArray⟩

/-- Joins the parts with `sep` between them. -/
def joinWith (sep : Bytes) (parts : List Bytes) : Bytes :=
  (parts.intersperse sep).flatten

/-- Cuts at every `sep`; a text without one is a single part. -/
def split (sep : UInt8) (b : Bytes) : List Bytes :=
  b.foldr (fun c parts =>
    if c = sep then [] :: parts
    else match parts with
      | [] => [[c]]
      | part :: rest => (c :: part) :: rest) [[]]

/-- Cuts at every line feed. -/
def lines (b : Bytes) : List Bytes :=
  b.split 10

end Bytes

/-- The digit of `n < 16` in lower-case hexadecimal. -/
def hexDigit (n : Nat) : Char :=
  if n < 10 then Char.ofNat (48 + n) else Char.ofNat (87 + n)

/-- Two lower-case hexadecimal digits. -/
def hexByte (b : UInt8) : String :=
  String.ofList [hexDigit (b.toNat / 16), hexDigit (b.toNat % 16)]

/-- All bytes in lower-case hexadecimal. -/
def Bytes.hex (b : Bytes) : String :=
  String.ofList (b.flatMap fun c => [hexDigit (c.toNat / 16), hexDigit (c.toNat % 16)])

/-- A natural number in decimal. -/
def decimal (n : Nat) : String :=
  String.ofList (Nat.toDigits 10 n)

/-- An integer in decimal, with a minus sign if it is negative. -/
def decimalInt (n : Int) : String :=
  if n < 0 then "-" ++ decimal n.natAbs else decimal n.natAbs

/-- `n` spaces. -/
def spaces (n : Nat) : String :=
  String.ofList (List.replicate n ' ')

/-- Fills up with spaces on the left to `width` characters. -/
def padLeft (width : Nat) (s : String) : String :=
  spaces (width - s.length) ++ s

/-- Fills up with spaces on the right to `width` characters. -/
def padRight (width : Nat) (s : String) : String :=
  s ++ spaces (width - s.length)

end TapeMachine
