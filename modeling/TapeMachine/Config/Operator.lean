/-
Operators of settings files on values.

An operator needs atoms. Where one is not determined yet, neither is the result; where it is of the wrong
kind, there is none.

* `Operator.unary`, `Operator.binary` calculate;
* `Operator.call` calls one of the functions that every file has.
-/
import TapeMachine.Config.Scope

namespace TapeMachine.Config

namespace Operator

/-- Gives an atom to a calculation. -/
def withAtom (v : Value) (f : Atom → Value) : Value :=
  match v.preferred with
  | .atom a => f a
  | .absent pending => .absent pending
  | .range _ _ => .undetermined
  | .choice _ => .undetermined
  | _ => .conflict

/-- Gives a truth value to a calculation. -/
def withBool (v : Value) (f : Bool → Value) : Value :=
  withAtom v fun
    | .bool b => f b
    | _ => .conflict

/-- The result of an operator before a value. -/
def unary (op : UnaryOp) (v : Value) : Value :=
  match op with
  | .not => withBool v fun b => .atom (.bool !b)
  | .plus => withAtom v fun a => if a.number?.isSome then .atom a else .conflict
  | .minus => withAtom v fun
    | .int n => .atom (.int (-n))
    | .float q => .atom (.float (-q))
    | _ => .conflict
  | .bound comparison => withAtom v fun a =>
    if comparison.canUse a then Value.constraint Kind.all [⟨comparison, a⟩] else .conflict
  | .preferred => v

/-- A sum, difference or product of numbers, which is whole if both numbers are. -/
def arithmetic (whole : Int → Int → Int) (other : Rat → Rat → Rat) (a b : Atom) : Value :=
  match a, b with
  | .int m, .int n => .atom (.int (whole m n))
  | a, b =>
    match a.number?, b.number? with
    | some p, some q => .atom (.float (other p q))
    | _, _ => .conflict

/-- A quotient or remainder of whole numbers; there is none by zero. -/
def wholeDivision (f : Int → Int → Int) (a b : Atom) : Value :=
  match a, b with
  | .int m, .int n => if n = 0 then .conflict else .atom (.int (f m n))
  | _, _ => .conflict

/-- A list repeated. -/
def times {α : Type} (n : Int) (items : List α) : List α :=
  (List.replicate n.toNat items).flatten

/-- The product of two atoms; a text or bytes may be repeated. -/
def product (a b : Atom) : Value :=
  let repeated (n : Int) : Atom → Value
    | .text s => if n < 0 then .conflict else .atom (.text (String.ofList (times n s.toList)))
    | .bytes s => if n < 0 then .conflict else .atom (.bytes (times n s))
    | _ => .conflict
  match a, b with
  | .int n, .text s => repeated n (.text s)
  | .int n, .bytes s => repeated n (.bytes s)
  | .text s, .int n => repeated n (.text s)
  | .bytes s, .int n => repeated n (.bytes s)
  | a, b => arithmetic (· * ·) (· * ·) a b

/-- Whether two atoms are equal, if they can be compared. Anything compares with null. -/
def equal? (a b : Atom) : Option Bool :=
  if a = .null || b = .null || a.kind = b.kind || (a.order? b).isSome then some (a.same b) else none

/-- The result of an operator between two atoms. -/
def atoms (op : BinaryOp) (a b : Atom) : Value :=
  match op with
  | .equal => ((equal? a b).map fun r => Value.atom (.bool r)).getD .conflict
  | .compare .different => ((equal? a b).map fun r => Value.atom (.bool !r)).getD .conflict
  | .compare (.meets positive) =>
    ((Comparison.meets? a b).map fun r => Value.atom (.bool (r == positive))).getD .conflict
  | .compare c => ((a.order? b).map fun o => Value.atom (.bool (c.holds o))).getD .conflict
  | .add =>
    match a, b with
    | .text s, .text t => .atom (.text (s ++ t))
    | .bytes s, .bytes t => .atom (.bytes (s ++ t))
    | a, b => arithmetic (· + ·) (· + ·) a b
  | .subtract => arithmetic (· - ·) (· - ·) a b
  | .multiply => product a b
  | .divide =>
    match a.number?, b.number? with
    | some p, some q => if q = 0 then .conflict else .atom (.float (p / q))
    | _, _ => .conflict
  | .floorQuotient => wholeDivision Int.ediv a b
  | .floorRemainder => wholeDivision Int.emod a b
  | .wholeQuotient => wholeDivision Int.tdiv a b
  | .wholeRemainder => wholeDivision Int.tmod a b
  | _ => .undetermined

/-- The result of an operator between two values. -/
def binary (op : BinaryOp) (a b : Value) : Value :=
  match op with
  | .and => withBool a fun p => if p then withBool b fun q => .atom (.bool q) else .atom (.bool false)
  | .or => withBool a fun p => if p then .atom (.bool true) else withBool b fun q => .atom (.bool q)
  | .equal =>
    match a.preferred, b.preferred with
    | .list items more, .list items' more' =>
      .atom (.bool (Value.alike (.list items more) (.list items' more')))
    | a, b => withAtom a fun p => withAtom b fun q => atoms op p q
  | op => withAtom a fun p => withAtom b fun q => atoms op p q

/-- The number of parts of a value. -/
def length (v : Value) : Value :=
  match v.preferred with
  | .list items _ => .atom (.int items.length)
  | .record fields _ _ =>
    .atom (.int (fields.filter fun (l, p, _) => l.field?.isSome && p = .given).length)
  | v => withAtom v fun
    | .text s => .atom (.int (utf8 s).length)
    | .bytes b => .atom (.int b.length)
    | _ => .conflict

/-- A record without further fields, unless three dots allow them. -/
def close (v : Value) : Value :=
  match v.preferred with
  | .record fields patterns .free => .record fields patterns .closed
  | .record fields patterns extent => .record fields patterns extent
  | .absent pending => .absent pending
  | .range _ _ => .undetermined
  | .choice _ => .undetermined
  | _ => .conflict

/-- Calls one of the functions that every file has. -/
def call (function : String) (arguments : List Value) : Value :=
  match function, arguments with
  | "len", [v] => length v
  | "close", [v] => close v
  | "and", [.list items _] => items.foldl Value.unify .any
  | "or", [.list items _] => Value.choose (items.map fun v => (v, false))
  | "div", [a, b] => binary .floorQuotient a b
  | "mod", [a, b] => binary .floorRemainder a b
  | "quo", [a, b] => binary .wholeQuotient a b
  | "rem", [a, b] => binary .wholeRemainder a b
  | _, arguments =>
    match arguments.find? (!·.isSome) with
    | some v => v
    | none => .conflict

/-- The decimal text of a fraction, with at most some places. -/
def decimalText : Nat → Nat → Nat → String
  | 0, _, _ => ""
  | places + 1, num, den =>
    if num = 0 then "" else toString (num * 10 / den) ++ decimalText places (num * 10 % den) den

/-- An atom as a part of a text. -/
def text? : Atom → Option String
  | .text s => some s
  | .int n => some (toString n)
  | .bool b => some (if b then "true" else "false")
  | .bytes b => b.toString?
  | .float q =>
    let places := decimalText 34 (q.num.natAbs % q.den) q.den
    some ((if q.num < 0 then "-" else "") ++ toString (q.num.natAbs / q.den) ++ "." ++
      if places.isEmpty then "0" else places)
  | .null => none

end Operator

end TapeMachine.Config
