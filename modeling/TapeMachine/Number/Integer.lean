/-
Reading integers of a fixed width.

* `Number.parseUnsigned` reads digits of a base, `Number.parseSigned` a sign and digits;
* `Number.parseUnsignedLiteral`, `Number.parseSignedLiteral` take the base from the first characters.

A number that does not fit is told apart from a text that is no number, and digits are read from the
left: a text that overflows before its first wrong character is out of range.
-/
import TapeMachine.Text.Bytes

namespace TapeMachine.Number

/-- Why a text is not read as a number. -/
inductive Error where
  | syntaxError
  | outOfRange
deriving DecidableEq, Repr

/-- The wording of a number error. -/
def Error.message : Error → String
  | syntaxError => "invalid syntax"
  | outOfRange => "value out of range"

/-- The value of a digit or letter, letters of both cases going on after nine. -/
def digitValue? (c : UInt8) : Option Nat :=
  if 48 ≤ c ∧ c ≤ 57 then some (c.toNat - 48)
  else if 97 ≤ c ∧ c ≤ 122 then some (c.toNat - 87)
  else if 65 ≤ c ∧ c ≤ 90 then some (c.toNat - 55)
  else none

/-- Whether a byte is a decimal digit. -/
def isDigit (c : UInt8) : Bool :=
  48 ≤ c && c ≤ 57

/-- Reads digits of a base from the left onto the value `n`, up to the largest value `limit`. -/
def readDigits (base limit : Nat) : Nat → Bytes → Except Error Nat
  | n, [] => .ok n
  | n, c :: rest =>
    match digitValue? c with
    | none => .error .syntaxError
    | some d =>
      if base ≤ d then .error .syntaxError
      else if limit < n * base + d then .error .outOfRange
      else readDigits base limit (n * base + d) rest

/-- Reads an unsigned number of `bits` bits. -/
def parseUnsigned (base bits : Nat) (s : Bytes) : Except Error Nat :=
  if s.isEmpty then .error .syntaxError else readDigits base (Nat.pow 2 bits - 1) 0 s

/-- The base that a literal names and its digits: `0b`, `0o`, `0x` in both cases, or a zero for base
eight. -/
def literalBase (s : Bytes) : Nat × Bytes :=
  match s with
  | 48 :: c :: d :: rest =>
    if c = 98 ∨ c = 66 then (2, d :: rest)
    else if c = 111 ∨ c = 79 then (8, d :: rest)
    else if c = 120 ∨ c = 88 then (16, d :: rest)
    else (8, c :: d :: rest)
  | 48 :: rest => (8, rest)
  | _ => (10, s)

/-- Reads an unsigned literal of `bits` bits. -/
def parseUnsignedLiteral (bits : Nat) (s : Bytes) : Except Error Nat :=
  if s.isEmpty then .error .syntaxError
  else
    let (base, digits) := literalBase s
    readDigits base (Nat.pow 2 bits - 1) 0 digits

/-- Reads a sign and then a number by `unsigned`, with a value of `bits` bits in two's complement. -/
def withSign (bits : Nat) (unsigned : Bytes → Except Error Nat) (s : Bytes) : Except Error Int :=
  match s with
  | [] => .error .syntaxError
  | c :: rest =>
    let magnitude := unsigned (if c = 43 ∨ c = 45 then rest else s)
    match magnitude with
    | .error e => .error e
    | .ok n =>
      if c = 45 then
        if Nat.pow 2 (bits - 1) < n then .error .outOfRange else .ok (-(n : Int))
      else if Nat.pow 2 (bits - 1) ≤ n then .error .outOfRange else .ok n

/-- Reads a signed number of `bits` bits. -/
def parseSigned (base bits : Nat) (s : Bytes) : Except Error Int :=
  withSign bits (parseUnsigned base bits) s

/-- Reads a signed literal of `bits` bits. -/
def parseSignedLiteral (bits : Nat) (s : Bytes) : Except Error Int :=
  withSign bits (parseUnsignedLiteral bits) s

end TapeMachine.Number
