/-
The shortest decimal text of a binary floating point number.

A decimal stands for a number if no other number of the format is nearer to it. Of the decimals that
stand for a number those with the fewest digits are taken, and of these the nearest.

* `BinaryFormat.shortest` finds the digits;
* `BinaryFormat.widen` takes a number over into the wider format;
* `Number.generalText` writes them, with an exponent if the number is large or small.
-/
import TapeMachine.Number.Binary

namespace TapeMachine.Number

namespace BinaryFormat

/-- The significand `m` and exponent `q` of a finite number `m * 2 ^ q`, from its bits without sign. -/
def decode (f : BinaryFormat) (bits : Nat) : Nat × Int :=
  let field := bits / f.unit
  if field = 0 then (bits, f.minExponent)
  else (bits % f.unit + f.unit, f.minExponent + (field - 1 : Nat))

/-- The reals that are nearer to a number than to any other, as numerators over one denominator: the
lower end, the number, the upper end. -/
def interval (f : BinaryFormat) (bits : Nat) : Nat × Nat × Nat × Nat :=
  let (m, q) := f.decode bits
  let below := if bits % f.unit = 0 ∧ f.unit < bits then 1 else 2
  let (s, d) := scale 1 1 (q - 2)
  ((4 * m - below) * s, 4 * m * s, (4 * m + 2) * s, d)

/-- A power of ten that makes every number of the formats larger than one. -/
def magnifier : Nat := 400

/-- The number `k` with `10 ^ (k - 1) ≤ num / den < 10 ^ k`. -/
def decimalExponent (num den : Nat) : Int :=
  (Nat.toDigits 10 (num * Nat.pow 10 magnifier / den)).length - (magnifier : Int)

/-- The decimal `c * 10 ^ e` on the grid `10 ^ e` that stands for a number and is nearest to it. The
ends of the interval count if `closed`. -/
def onGrid? (closed : Bool) (low value high den : Nat) (e : Int) : Option Nat :=
  let (num, step) := if e < 0 then (Nat.pow 10 e.natAbs, 1) else (1, Nat.pow 10 e.natAbs)
  let unit := den * step
  let inside (c : Nat) : Bool :=
    let p := c * unit
    if closed then low * num ≤ p && p ≤ high * num else low * num < p && p < high * num
  let c := value * num / unit
  let nearer := 2 * (value * num - c * unit) < unit
  match inside c, inside (c + 1) with
  | true, true => some (if nearer then c else c + 1)
  | true, false => some c
  | false, true => some (c + 1)
  | false, false => none

/-- The digits `c` and the exponent `e` of the shortest decimal `c * 10 ^ e` for a finite positive
number. -/
def shortest (f : BinaryFormat) (bits : Nat) : Nat × Int :=
  let (low, value, high, den) := f.interval bits
  let k := decimalExponent value den
  let closed := (f.decode bits).1 % 2 = 0
  let found := (List.range 17).findSome? fun n =>
    let e := k - (n + 1 : Nat)
    (onGrid? closed low value high den e).map fun c => (c, e)
  found.getD (0, 0)

/-- The number of 64 bits that has the value of a number of 32 bits. -/
def widen (bits : Nat) : Nat :=
  let sign := if single.signBit ≤ bits then double.signBit else 0
  let magnitude := bits % single.signBit
  if single.infinity ≤ magnitude then
    sign + double.infinity +
      (magnitude - single.infinity) * Nat.pow 2 (double.precision - single.precision)
  else
    let (m, q) := single.decode magnitude
    let (num, den) := scale m 1 q
    sign + (double.round num den).getD 0

end BinaryFormat

/-- Digits without the zeros at their end, and the exponent of the last one. -/
def dropZeros (c : Nat) (e : Int) : List Char × Int :=
  let (zeros, digits) := (Nat.toDigits 10 c).reverse.span (· = '0')
  (digits.reverse, e + zeros.length)

/-- An exponent with its sign and at least two digits. -/
def exponentText (e : Int) : String :=
  let digits := decimal e.natAbs
  (if e < 0 then "e-" else "e+") ++ (if digits.length < 2 then "0" else "") ++ digits

/-- The shortest text of a finite number, from its bits without sign. An exponent is written if the
number has seven digits before its point or more, or four zeros behind it before the first digit. -/
def generalText (f : BinaryFormat) (bits : Nat) : String :=
  if bits = 0 then "0"
  else
    let (c, e) := f.shortest bits
    let (digits, e) := dropZeros c e
    let point := digits.length + e
    if point - 1 < -4 ∨ 6 < point then
      let tail := digits.drop 1
      String.ofList (digits.take 1 ++ if tail.isEmpty then [] else '.' :: tail) ++ exponentText (point - 1)
    else if point ≤ 0 then
      "0." ++ String.ofList (List.replicate point.natAbs '0' ++ digits)
    else if 0 ≤ e then String.ofList (digits ++ List.replicate e.natAbs '0')
    else String.ofList (digits.take point.toNat ++ '.' :: digits.drop point.toNat)

end TapeMachine.Number
