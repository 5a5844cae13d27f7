/-
Binary floating point numbers.

A format is fixed by the digits of its significand and its least exponent. Values are held as their
bits.

* `BinaryFormat.round` is the nearest number to a fraction, a half going to the even neighbour;
* `Number.parseFloat` reads decimal and hexadecimal floating point texts.
-/
import TapeMachine.Number.Integer

namespace TapeMachine.Number

/-- A binary floating point format with `precision` binary digits, whose least positive number is
`2 ^ minExponent`, and `exponentBits` bits of exponent. -/
structure BinaryFormat where
  precision : Nat
  minExponent : Int
  exponentBits : Nat
deriving DecidableEq, Repr

namespace BinaryFormat

/-- Numbers of 64 bits. -/
def double : BinaryFormat := ⟨53, -1074, 11⟩

/-- Numbers of 32 bits. -/
def single : BinaryFormat := ⟨24, -149, 8⟩

/-- The weight of the lowest exponent bit. -/
def unit (f : BinaryFormat) : Nat :=
  Nat.pow 2 (f.precision - 1)

/-- The bits of positive infinity. -/
def infinity (f : BinaryFormat) : Nat :=
  (Nat.pow 2 f.exponentBits - 1) * f.unit

/-- The bit that marks negative numbers. -/
def signBit (f : BinaryFormat) : Nat :=
  Nat.pow 2 f.exponentBits * f.unit

/-- The width of a number in bits. -/
def width (f : BinaryFormat) : Nat :=
  f.precision + f.exponentBits

/-- `num / den` times `2 ^ e`, as a fraction. -/
def scale (num den : Nat) (e : Int) : Nat × Nat :=
  if e < 0 then (num, den * Nat.pow 2 e.natAbs) else (num * Nat.pow 2 e.natAbs, den)

/-- The quotient rounded to the nearest integer, a half going to the even one. -/
def divNearest (num den : Nat) : Nat :=
  let q := num / den
  let r := num % den
  if 2 * r < den then q else if den < 2 * r then q + 1 else q + q % 2

/-- The exponent of the highest binary digit of a positive fraction. -/
def highestExponent (num den : Nat) : Int :=
  let e : Int := num.log2 - den.log2
  let (n, d) := scale num den (-e)
  if n < d then e - 1 else e

/-- The bits of the number nearest to a fraction, if it is not out of range. -/
def round (f : BinaryFormat) (num den : Nat) : Option Nat :=
  if num = 0 then some 0
  else
    let q := max (highestExponent num den - (f.precision - 1 : Nat)) f.minExponent
    let (n, d) := scale num den (-q)
    let bits := (q - f.minExponent).toNat * f.unit + divNearest n d
    if f.infinity ≤ bits then none else some bits

end BinaryFormat

/-- A lower-case letter for a letter of either case; other bytes stay. -/
def lowerByte (c : UInt8) : UInt8 :=
  if 65 ≤ c ∧ c ≤ 90 then c + 32 else c

/-- Whether every underscore stands between digits, where the mark of a base counts as a digit. -/
def underscoresSeparate (s : Bytes) : Bool :=
  let s := match s with
    | c :: rest => if c = 43 ∨ c = 45 then rest else s
    | [] => s
  let (isHex, afterBase, s) := match s with
    | 48 :: c :: rest =>
      let c := lowerByte c
      if c = 98 ∨ c = 111 ∨ c = 120 then (c == 120, true, rest) else (false, false, s)
    | _ => (false, false, s)
  let digit (c : UInt8) : Bool :=
    isDigit c || isHex && 97 ≤ lowerByte c && lowerByte c ≤ 102
  let rec go (previousDigit previousUnderscore : Bool) : Bytes → Bool
    | [] => !previousUnderscore
    | c :: rest =>
      if digit c then go true false rest
      else if c = 95 then previousDigit && go false true rest
      else !previousUnderscore && go false false rest
  go afterBase false s

/-- What stands for infinity or not-a-number, in any case: the magnitude's bits. -/
def parseSpecial (f : BinaryFormat) (signed : Bool) (s : Bytes) : Option Nat :=
  let s := s.map lowerByte
  if s = utf8 "inf" ∨ s = utf8 "infinity" then some f.infinity
  else if s = utf8 "nan" ∧ !signed then
    -- a quiet not-a-number; the wide format also marks its lowest bit
    some (f.infinity + f.unit / 2 + if f.precision = 53 then 1 else 0)
  else none

/-- The value of an exponent, read no further than four digits past zero. -/
def readExponent (digits : Bytes) : Nat :=
  digits.foldl (fun e c => if c = 95 ∨ 10000 ≤ e then e else e * 10 + (c.toNat - 48)) 0

/-- The exponent of a floating point text after its mark: sign and digits. -/
def parseExponent (s : Bytes) : Option Int :=
  let (negative, digits) := match s with
    | 43 :: rest => (false, rest)
    | 45 :: rest => (true, rest)
    | _ => (false, s)
  match digits with
  | c :: _ =>
    if isDigit c && digits.all (fun c => isDigit c || c = 95) then
      let e := readExponent digits
      some (if negative then -(e : Int) else e)
    else none
  | [] => none

/-- Splits the digits of a significand from what follows. -/
def spanSignificand (base : Nat) (s : Bytes) : Bytes × Bytes :=
  s.span fun c => c = 46 || c = 95 || (digitValue? c).any (· < base)

/-- The value of a significand and the number of its digits behind the point. -/
def readSignificand (base : Nat) (s : Bytes) : Nat × Nat :=
  let value := s.foldl (fun n c => match digitValue? c with
    | some d => n * base + d
    | none => n) 0
  let behind := ((s.dropWhile (· ≠ 46)).filter fun c => (digitValue? c).isSome).length
  (value, behind)

/-- Reads an unsigned finite number as a fraction. -/
def parseFinite (s : Bytes) : Option (Nat × Nat) :=
  let (base, mark, body) : Nat × UInt8 × Bytes := match s with
    | 48 :: c :: d :: rest => if lowerByte c = 120 then (16, 112, d :: rest) else (10, 101, s)
    | _ => (10, 101, s)
  let (significand, rest) := spanSignificand base body
  if significand.count 46 > 1 ∨ !significand.any (fun c => (digitValue? c).isSome) then none
  else
    let (value, behind) := readSignificand base significand
    match rest with
    | [] => if base = 16 then none else some (value, Nat.pow 10 behind)
    | c :: tail =>
      if lowerByte c ≠ mark then none
      else match parseExponent tail with
        | none => none
        | some e =>
          if base = 16 then some (BinaryFormat.scale value 1 (e - 4 * (behind : Nat)))
          else
            let e := e - (behind : Nat)
            if e < 0 then some (value, Nat.pow 10 e.natAbs)
            else some (value * Nat.pow 10 e.natAbs, 1)

/-- Reads a floating point text to the bits of the nearest number. -/
def parseFloat (f : BinaryFormat) (s : Bytes) : Except Error Nat :=
  let (signed, negative, body) := match s with
    | 43 :: rest => (true, false, rest)
    | 45 :: rest => (true, true, rest)
    | _ => (false, false, s)
  let sign := if negative then f.signBit else 0
  match parseSpecial f signed body with
  | some bits => .ok (sign + bits)
  | none =>
    match parseFinite body with
    | none => .error .syntaxError
    | some (num, den) =>
      if s.contains 95 && !underscoresSeparate s then .error .syntaxError
      else match f.round num den with
        | none => .error .outOfRange
        | some bits => .ok (sign + bits)

end TapeMachine.Number
