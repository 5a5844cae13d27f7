/-
Arithmetic of floating point numbers of 64 bits.

A finite number stands for a fraction. The result of an operation is the number nearest to the exact
result, so every operation is one on fractions followed by a rounding.

* `Double.ratio?` is the fraction that a finite number stands for, `Double.ofRatio` the nearest number;
* `Double.add`, `Double.subtract`, `Double.multiply`, `Double.divide`, `Double.modulo` calculate;
* `Double.order` compares, with not-a-number above all;
* `Double.text` writes the shortest text, `Double.fixedText` and `Double.scientificText` six digits.
-/
import TapeMachine.Number.Shortest

namespace TapeMachine.Number

/-- A fraction with a positive denominator. -/
structure Ratio where
  num : Int
  den : Nat
deriving DecidableEq, Repr

namespace Ratio

/-- The sum of two fractions. -/
def add (a b : Ratio) : Ratio :=
  ⟨a.num * b.den + b.num * a.den, a.den * b.den⟩

/-- The product of two fractions. -/
def multiply (a b : Ratio) : Ratio :=
  ⟨a.num * b.num, a.den * b.den⟩

/-- The quotient of two fractions, the second of which is not zero. -/
def divide (a b : Ratio) : Ratio :=
  ⟨a.num * b.den * b.num.sign, a.den * b.num.natAbs⟩

/-- The largest whole number that is not above a fraction. -/
def floor (a : Ratio) : Int :=
  a.num.fdiv a.den

/-- The whole number next to a fraction toward zero. -/
def truncate (a : Ratio) : Int :=
  a.num.tdiv a.den

/-- How two fractions compare. -/
def order (a b : Ratio) : Ordering :=
  compare (a.num * b.den) (b.num * a.den)

end Ratio

namespace Double

/-- The format. -/
def format : BinaryFormat := .double

/-- Whether a number has the sign of negative numbers. -/
def isNegative (bits : Nat) : Bool :=
  format.signBit ≤ bits

/-- The bits without the sign. -/
def magnitude (bits : Nat) : Nat :=
  bits % format.signBit

/-- Whether a number is not-a-number. -/
def isNaN (bits : Nat) : Bool :=
  format.infinity < magnitude bits

/-- Whether a number is an infinity. -/
def isInfinite (bits : Nat) : Bool :=
  magnitude bits = format.infinity

/-- Whether a number is a zero of either sign. -/
def isZero (bits : Nat) : Bool :=
  magnitude bits = 0

/-- A quiet not-a-number. -/
def nan : Nat :=
  format.infinity + format.unit / 2 + 1

/-- An infinity or a zero with a sign, or any other magnitude. -/
def withSign (negative : Bool) (magnitude : Nat) : Nat :=
  if negative then format.signBit + magnitude else magnitude

/-- An infinity. -/
def infinity (negative : Bool) : Nat :=
  withSign negative format.infinity

/-- The number with the other sign. -/
def negate (bits : Nat) : Nat :=
  withSign (!isNegative bits) (magnitude bits)

/-- The fraction that a finite number stands for. -/
def ratio? (bits : Nat) : Option Ratio :=
  if format.infinity ≤ magnitude bits then none
  else
    let (m, q) := format.decode (magnitude bits)
    let (num, den) := BinaryFormat.scale m 1 q
    some ⟨if isNegative bits then -num else num, den⟩

/-- The number nearest to a fraction; a fraction that rounds to zero gets the sign `zeroNegative`, or its
own if it is not zero itself. -/
def ofRatio (zeroNegative : Bool) (r : Ratio) : Nat :=
  let negative := if r.num = 0 then zeroNegative else r.num < 0
  withSign negative ((format.round r.num.natAbs r.den).getD format.infinity)

/-- The number nearest to a whole number, unless that is out of range. -/
def ofInt? (i : Int) : Option Nat :=
  (format.round i.natAbs 1).map (withSign (i < 0))

/-- The sum of two numbers. -/
def add (a b : Nat) : Nat :=
  match ratio? a, ratio? b with
  | some x, some y => ofRatio (isNegative a && isNegative b) (x.add y)
  | _, _ =>
    if isNaN a || isNaN b then nan
    else if isInfinite a && isInfinite b then if a = b then a else nan
    else if isInfinite a then a else b

/-- The difference of two numbers. -/
def subtract (a b : Nat) : Nat :=
  add a (negate b)

/-- The product of two numbers. -/
def multiply (a b : Nat) : Nat :=
  let negative := isNegative a ≠ isNegative b
  match ratio? a, ratio? b with
  | some x, some y => ofRatio negative (x.multiply y)
  | _, _ => if isNaN a || isNaN b || isZero a || isZero b then nan else infinity negative

/-- The quotient of two numbers, the second of which is not zero. -/
def divide (a b : Nat) : Nat :=
  let negative := isNegative a ≠ isNegative b
  match ratio? a, ratio? b with
  | some x, some y => ofRatio negative (x.divide y)
  | none, some _ => if isNaN a then nan else infinity negative
  | some _, none => if isNaN b then nan else withSign negative 0
  | none, none => nan

/-- The largest whole number that is not above a number. -/
def floor (bits : Nat) : Nat :=
  match ratio? bits with
  | some r => ofRatio (isNegative bits) ⟨r.floor, 1⟩
  | none => bits

/-- How two numbers compare: not-a-number equals itself and is above all others. -/
def order (a b : Nat) : Ordering :=
  match isNaN a, isNaN b with
  | true, true => .eq
  | true, false => .gt
  | false, true => .lt
  | false, false =>
    match ratio? a, ratio? b with
    | some x, some y => x.order y
    | none, some _ => if isNegative a then .lt else .gt
    | some _, none => if isNegative b then .gt else .lt
    | none, none => compare (isNegative b).toNat (isNegative a).toNat

/-- How a whole number compares to a number. -/
def orderInt (i : Int) (b : Nat) : Ordering :=
  match ratio? b with
  | some y => Ratio.order ⟨i, 1⟩ y
  | none => if isNaN b || !isNegative b then .lt else .gt

/-- The remainder of a division that rounds toward zero; it has the sign of the first number. -/
def remainder (a b : Nat) : Nat :=
  match ratio? a, ratio? b with
  | some x, some y =>
    let scaled : Int := (x.num * y.den).tmod (y.num * x.den)
    ofRatio (isNegative a) ⟨scaled, x.den * y.den⟩
  | some _, none => if isNaN b then nan else a
  | none, _ => nan

/-- The remainder of a division that rounds down, the second number not being zero. -/
def modulo (a b : Nat) : Nat :=
  let r := remainder a b
  let below (bits : Nat) : Bool := isNegative bits && !isZero bits && !isNaN bits
  if below a ≠ below b && !isZero r then add r b else r

/-! ### Text -/

/-- A number that is not finite. -/
def specialText (bits : Nat) : String :=
  if isNaN bits then "nan" else if isNegative bits then "-inf" else "+inf"

/-- The shortest text of a number: always with a point or an exponent. -/
def text (bits : Nat) : String :=
  if format.infinity ≤ magnitude bits then specialText bits
  else
    let digits := generalText .double (magnitude bits)
    let marked := digits.toList.any fun c => c = '.' || c = 'e'
    (if isNegative bits then "-" else "") ++ digits ++ if marked then "" else ".0"

/-- Digits with a point before the last `places`. -/
def pointed (places : Nat) (digits : List Char) : String :=
  let digits := List.replicate (places + 1 - digits.length) '0' ++ digits
  String.ofList (digits.take (digits.length - places) ++ '.' :: digits.drop (digits.length - places))

/-- A number with six digits behind the point. -/
def fixedText (bits : Nat) : String :=
  match ratio? bits with
  | none => specialText bits
  | some r =>
    (if isNegative bits then "-" else "") ++
      pointed 6 (Nat.toDigits 10 (BinaryFormat.divNearest (r.num.natAbs * Nat.pow 10 6) r.den))

/-- A number with an exponent and six digits behind the point. -/
def scientificText (bits : Nat) : String :=
  match ratio? bits with
  | none => specialText bits
  | some r =>
    let sign := if isNegative bits then "-" else ""
    if r.num = 0 then sign ++ "0.000000e+00"
    else
      let k := BinaryFormat.decimalExponent r.num.natAbs r.den - 1
      let scaled (k : Int) : Nat :=
        let e := 6 - k
        if e < 0 then BinaryFormat.divNearest r.num.natAbs (r.den * Nat.pow 10 e.natAbs)
        else BinaryFormat.divNearest (r.num.natAbs * Nat.pow 10 e.natAbs) r.den
      let (c, k) := if scaled k = Nat.pow 10 7 then (Nat.pow 10 6, k + 1) else (scaled k, k)
      sign ++ pointed 6 (Nat.toDigits 10 c) ++ exponentText k

end Double

end TapeMachine.Number
