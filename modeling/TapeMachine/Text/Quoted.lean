/-
Quoted text: a byte string between double quotes, with escapes for what does not print.

* `Quoted.quote` writes a byte string;
* `Quoted.quoteString` writes a text.
-/
import TapeMachine.Text.Printable
import TapeMachine.Text.Utf8

namespace TapeMachine.Quoted

/-- The lowest `digits` hexadecimal digits of a number. -/
def hexPadded (digits n : Nat) : List Char :=
  (List.range digits).reverse.map fun i => hexDigit (n / Nat.pow 16 i % 16)

/-- The letter of a control character's escape. -/
def controlLetter? (c : Char) : Option Char :=
  match c.toNat with
  | 7 => some 'a'
  | 8 => some 'b'
  | 12 => some 'f'
  | 10 => some 'n'
  | 13 => some 'r'
  | 9 => some 't'
  | 11 => some 'v'
  | _ => none

/-- A character between quotes. -/
def quoteChar (c : Char) : List Char :=
  if c = '"' ∨ c = '\\' then ['\\', c]
  else if isPrintable c then [c]
  else match controlLetter? c with
    | some letter => ['\\', letter]
    | none =>
      let n := c.toNat
      if n < 0x80 then '\\' :: 'x' :: hexPadded 2 n
      else if n < 0x10000 then '\\' :: 'u' :: hexPadded 4 n
      else '\\' :: 'U' :: hexPadded 8 n

/-- A character or stray byte between quotes. -/
def quoteRune : Rune → List Char
  | .char c => quoteChar c
  | .stray b => '\\' :: 'x' :: hexPadded 2 b.toNat

/-- A byte string in quotes. -/
def quoteString (s : Bytes) : String :=
  String.ofList ('"' :: (Utf8.runes s).flatMap quoteRune ++ ['"'])

/-- A byte string in quotes, as bytes. -/
def quote (s : Bytes) : Bytes :=
  utf8 (quoteString s)

end TapeMachine.Quoted
