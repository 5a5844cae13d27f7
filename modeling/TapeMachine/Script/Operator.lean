/-
Operators, items and slices.

* `Work.binary` and `Work.unary` apply operators;
* `Work.getItem`, `Work.setItem`, `Work.getSlice` work on containers;
* `Work.update` applies an operator that may change its left operand.
-/
import TapeMachine.Script.Format

namespace TapeMachine.Script

open Number

/-- The result of an operation that needs no store. -/
def Work.lift {α : Type} : Except Bytes α → Work α
  | .ok a => pure a
  | .error e => throw e

namespace Work

/-- A whole number as a floating point number. -/
def toFloat (i : Int) : Work Nat :=
  match Double.ofInt? i with
  | some bits => pure bits
  | none => complain "int too large to convert to float"

/-- Two numbers, of which at least one is a floating point number, as such numbers. -/
def floats? (a b : Value) : Work (Option (Nat × Nat)) :=
  match a, b with
  | .float x, .float y => return some (x, y)
  | .float x, .int j => return some (x, ← toFloat j)
  | .int i, .float y => return some (← toFloat i, y)
  | _, _ => return none

/-! ### Repetition -/

/-- The largest number of items that a repetition makes. -/
def repeatLimit : Nat := Nat.pow 2 30

/-- The number of times that `n` items are repeated. -/
def repeatCount (n : Nat) (times : Int) : Work Nat := do
  if n = 0 then return 0
  if ¬(-(Nat.pow 2 31 : Int) ≤ times ∧ times < Nat.pow 2 31) then
    complain ("repeat count " ++ decimalInt times ++ " too large")
  if times < 1 then return 0
  if repeatLimit ≤ n * times.toNat then
    complain ("excessive repeat (" ++ decimal n ++ " * " ++ decimalInt times ++ " elements)")
  return times.toNat

/-- Items repeated. -/
def repeated {α : Type} (items : List α) (times : Int) : Work (List α) := do
  return (List.replicate (← repeatCount items.length times) items).flatten

/-- A sequence repeated, if it is one. -/
def repeat? (v : Value) (times : Int) : Work (Option Value) := do
  match v with
  | .text s => return some (.text (← repeated s times))
  | .bytes s => return some (.bytes (← repeated s times))
  | .tuple items => return some (.tuple (← repeated items times))
  | .list a => return some (← newList (← repeated ((← get).listItems a).toList times))
  | _ => return none

/-! ### Operators -/

/-- Whether one byte string stands in another. -/
def containsBytes (part : Bytes) : Bytes → Bool
  | [] => part.isEmpty
  | b :: rest => part.isPrefixOf (b :: rest) || containsBytes part rest

/-- Whether an equal value is among items. -/
def anyEquals (v : Value) : List Value → Work Bool
  | [] => return false
  | item :: rest => do if ← equals item v then return true else anyEquals v rest

/-- Whether a whole number is in a range. -/
def inRange (start stop step i : Int) : Bool :=
  if 0 < step then start ≤ i && i < stop && (i - start) % step = 0
  else stop < i && i ≤ start && (start - i) % -step = 0

/-- Whether a value stands in a container, if it is one. -/
def member? (v container : Value) : Work (Option Bool) := do
  match container with
  | .list a => some <$> anyEquals v ((← get).listItems a).toList
  | .tuple items => some <$> anyEquals v items
  | .dict a =>
    return some (v.unhashable?.isNone && (v.lookup? ((← get).dictEntries a)).isSome)
  | .set a =>
    checkKey v
    return some (v.isKeyIn ((← get).setItems a))
  | .text s =>
    match v with
    | .text part => return some (containsBytes part s)
    | v => complain ("'in <string>' requires string as left operand, not " ++ v.typeName)
  | .bytes s =>
    match v with
    | .bytes part => return some (containsBytes part s)
    | .int i =>
      if 0 ≤ i ∧ i < 256 then return some (s.contains i.toNat.toUInt8)
      else complain ("int in bytes: " ++ decimalInt i ++ " out of range (want value in unsigned 8-bit range)")
    | v => complain ("'in bytes' requires bytes or int as left operand, not " ++ v.typeName)
  | .range start stop step =>
    match v.toInt with
    | .ok i => return some (inRange start stop step i)
    | .error _ => complain ("'in <range>' requires integer as left operand, not " ++ v.typeName)
  | _ => return none

/-- Whole numbers bit by bit, in two's complement without end. -/
def bitwise (f : Bool → Bool → Bool) (a b : Int) : Int :=
  let width := max a.natAbs.log2 b.natAbs.log2 + 2
  let m : Int := Nat.pow 2 width
  let x := (a % m).toNat
  let y := (b % m).toNat
  let r : Nat := (List.range width).foldl (fun n i =>
    if f (x.testBit i) (y.testBit i) then n + Nat.pow 2 i else n) 0
  if r.testBit (width - 1) then r - m else r

/-- The result of an operation on two sets, if it is one. -/
def setOperation? (op : BinaryOp) (as bs : List Value) : Option (List Value) :=
  let without (xs ys : List Value) : List Value := xs.filter fun x => !x.isKeyIn ys
  match op with
  | .bitOr => some (as ++ without bs as)
  | .bitAnd => some (bs.filter fun y => y.isKeyIn as)
  | .bitXor => some (without as bs ++ without bs as)
  | .subtract => some (without as bs)
  | _ => none

/-- An operation on two whole numbers, if it is one. -/
def intOperation? (op : BinaryOp) (a b : Int) : Work (Option Value) := do
  let whole (i : Int) : Work (Option Value) := return some (.int i)
  match op with
  | .add => whole (a + b)
  | .subtract => whole (a - b)
  | .multiply => whole (a * b)
  | .divide =>
    let x ← toFloat a
    let y ← toFloat b
    if Double.isZero y then complain "floating-point division by zero"
    return some (.float (Double.divide x y))
  | .floorDivide => if b = 0 then complain "floored division by zero" else whole (a.fdiv b)
  | .modulo => if b = 0 then complain "integer modulo by zero" else whole (a.fmod b)
  | .bitOr => whole (bitwise (· || ·) a b)
  | .bitAnd => whole (bitwise (· && ·) a b)
  | .bitXor => whole (bitwise (fun x y => x != y) a b)
  | _ => return none

/-- An operation on two floating point numbers, if it is one. -/
def floatOperation? (op : BinaryOp) (a b : Nat) : Work (Option Value) := do
  let number (bits : Nat) : Work (Option Value) := return some (.float bits)
  let divided (message : String) (bits : Nat) : Work (Option Value) :=
    if Double.isZero b then complain message else number bits
  match op with
  | .add => number (Double.add a b)
  | .subtract => number (Double.subtract a b)
  | .multiply => number (Double.multiply a b)
  | .divide => divided "floating-point division by zero" (Double.divide a b)
  | .floorDivide => divided "floored division by zero" (Double.floor (Double.divide a b))
  | .modulo => divided "floating-point modulo by zero" (Double.modulo a b)
  | _ => return none

/-- A whole number moved by a number of bits. -/
def shift (op : BinaryOp) (a : Int) (b : Value) : Work Value := do
  match b.toInt32 with
  | .error e => complain e
  | .ok n =>
    if n < 0 then complain ("negative shift count: " ++ decimalInt n)
    if op = .shiftRight then return .int (a.fdiv (Nat.pow 2 n.toNat))
    if 512 ≤ n then complain ("shift count too large: " ++ decimalInt n)
    return .int (a * Nat.pow 2 n.toNat)

/-- The result of an operator on two values, if there is one. -/
def operation? (op : BinaryOp) (a b : Value) : Work (Option Value) := do
  match op, a, b with
  | .isIn, a, b => return (← member? a b).map .bool
  | .isNotIn, a, b => return (← member? a b).map fun r => .bool !r
  | .shiftLeft, .int i, b => some <$> shift op i b
  | .shiftRight, .int i, b => some <$> shift op i b
  | .modulo, .text s, v => return some (.text (← lift (Format.interpolate (← get) s v)))
  | op, .int i, .int j => intOperation? op i j
  | .add, .text s, .text t => return some (.text (s ++ t))
  | .add, .tuple s, .tuple t => return some (.tuple (s ++ t))
  | .add, .list x, .list y =>
    let s ← get
    return some (← newList ((s.listItems x).toList ++ (s.listItems y).toList))
  | .bitOr, .dict x, .dict y =>
    let s ← get
    return some (← newDict ((s.dictEntries y).foldl (fun entries (k, v) => Value.store k v entries)
      (s.dictEntries x)))
  | op, .set x, .set y =>
    let s ← get
    match setOperation? op (s.setItems x) (s.setItems y) with
    | some items => some <$> newSet items
    | none => return none
  | .multiply, .int i, v => repeatOrFloat i v
  | .multiply, v, .int i => repeatOrFloat i v
  | op, a, b => do
    match ← floats? a b with
    | some (x, y) => floatOperation? op x y
    | none => return none
where
  /-- A sequence repeated, or a product with a floating point number. -/
  repeatOrFloat (i : Int) (v : Value) : Work (Option Value) := do
    match ← repeat? v i, ← floats? (.int i) v with
    | some r, _ => return some r
    | none, some (x, y) => floatOperation? .multiply x y
    | none, none => return none

/-- Applies an operator to two values. -/
def binary (op : BinaryOp) (a b : Value) : Work Value := do
  match op with
  | .equal | .different | .less | .greater | .atMost | .atLeast => return .bool (← compare op a b)
  | op =>
    match ← operation? op a b with
    | some v => return v
    | none =>
      let spelling := if op = .isNotIn then "in" else op.spelling
      complain ("unknown binary op: " ++ a.typeName ++ " " ++ spelling ++ " " ++ b.typeName)

/-- Applies an operator to one value. -/
def unary (op : UnaryOp) (v : Value) : Work Value := do
  match op, v with
  | .not, v => return .bool !((← get).truth v)
  | .negative, .int i => return .int (-i)
  | .negative, .float bits => return .float (Double.negate bits)
  | .positive, .int i => return .int i
  | .positive, .float bits => return .float bits
  | .complement, .int i => return .int (-i - 1)
  | op, v => complain ("unknown unary op: " ++ op.spelling ++ " " ++ v.typeName)

/-! ### Items -/

/-- The message for a place that is not there. -/
def outOfRange (type : String) (n : Nat) (i : Int) : String :=
  if n = 0 then "index " ++ decimalInt i ++ " out of range: empty " ++ type
  else type ++ " index " ++ decimalInt i ++ " out of range [" ++ decimalInt (-n) ++ ":" ++
    decimalInt (n - 1) ++ "]"

/-- The place that a number means among `n` items, counted from the end if it is negative. -/
def place? (n : Nat) (i : Int) : Option Nat :=
  let j := if i < 0 then i + n else i
  if 0 ≤ j ∧ j < n then some j.toNat else none

/-- The place that a value means among the items of a value. -/
def placeOf (container place : Value) (n : Nat) : Work Nat := do
  match place.toInt32 with
  | .error e => complain e
  | .ok i =>
    match place? n i with
    | some j => return j
    | none => complain (outOfRange container.typeName n i)

/-- Says what kind of place was looked for if the place is no number. -/
def indexPlace (container place : Value) (n : Nat) : Work Nat := do
  match place.toInt32 with
  | .error e => complain (container.typeName ++ " index: " ++ e)
  | .ok _ => placeOf container place n

/-- The item at a place, or under a key. -/
def getItem (container place : Value) : Work Value := do
  let s ← get
  let pick {α : Type} (items : List α) (f : α → Value) : Work Value := do
    let i ← indexPlace container place items.length
    match items[i]? with
    | some item => return f item
    | none => complain (outOfRange container.typeName items.length i)
  match container with
  | .dict a =>
    match ← getKey a place with
    | some value => return value
    | none => throw (utf8 "key " ++ s.write place ++ utf8 " not in dict")
  | .list a =>
    let items := s.listItems a
    let i ← indexPlace container place items.size
    return items.getD i .none
  | .tuple items => pick items id
  | .text t => pick t fun b => .text [b]
  | .bytes t => pick t fun b => .bytes [b]
  | .range start stop step =>
    let i ← indexPlace container place (Value.rangeLength start stop step)
    return .int (start + step * i)
  | .view .elems t => pick t fun b => .text [b]
  | .view .elemOrds t | .view .byteElems t => pick t fun b => .int b.toNat
  | v => complain ("unhandled index operation " ++ v.typeName ++ "[" ++ place.typeName ++ "]")

/-- Puts an item at a place, or under a key. -/
def setItem (container place value : Value) : Work Unit := do
  match container with
  | .dict a => setKey a place value
  | .list a =>
    let i ← placeOf container place ((← get).listItems a).size
    let items ← mutableList "assign to element of" a
    put a (.list (items.setIfInBounds i value) 0)
  | v => complain (v.typeName ++ " value does not support item assignment")

/-! ### Slices -/

/-- An end of a slice of `n` items, counted from the end if it is negative; `fallback` if it is left
out. -/
def sliceEnd (what : String) (n fallback : Int) : Value → Work Int
  | .none => return fallback
  | v =>
    match v.toInt32 with
    | .ok i => return if i < 0 then i + n else i
    | .error e => complain ("invalid " ++ what ++ " index: " ++ e)

/-- The part of `n` items from a first to before a last one, both within the items. -/
def interval (n : Nat) (low high : Value) : Work (Nat × Nat) := do
  let low ← sliceEnd "start" n 0 low
  let high ← sliceEnd "end" n n high
  return ((max 0 (min low n)).toNat, (max 0 (min high n)).toNat)

/-- The first place, the place at which to stop and the step of a slice of `n` items. -/
def sliceBounds (n : Nat) (low high step : Value) : Work (Int × Int × Int) := do
  let step ← match step with
    | .none => pure 1
    | v =>
      match v.toInt32 with
      | .ok i => pure i
      | .error e => complain ("invalid slice step: " ++ e)
  if step = 0 then complain "zero is not a valid slice step"
  if 0 < step then
    let (low, high) ← interval n low high
    return (low, max low high, step)
  else
    let low ← sliceEnd "start" n (n - 1) low
    let high ← sliceEnd "end" n (-1) high
    let low := min low (n - 1)
    let high := max high (-1)
    return (max low high, high, step)

/-- The items of a slice. -/
def sliceItems {α : Type} (items : List α) (low high step : Int) : List α :=
  let all := items.toArray
  (List.range (Value.rangeLength low high step)).filterMap fun (i : Nat) => all[(low + step * i).toNat]?

/-- A slice of a value. -/
def getSlice (container low high step : Value) : Work Value := do
  let s ← get
  let cut {α : Type} (items : List α) : Work (List α) := do
    let (first, stop, step) ← sliceBounds items.length low high step
    return sliceItems items first stop step
  match container with
  | .list a => newList (← cut (s.listItems a).toList)
  | .tuple items => return .tuple (← cut items)
  | .text t => return .text (← cut t)
  | .bytes t => return .bytes (← cut t)
  | .range start stop stride =>
    let (first, last, step) ← sliceBounds (Value.rangeLength start stop stride) low high step
    return .range (start + stride * first) (start + stride * last) (stride * step)
  | v => complain ("invalid slice operand " ++ v.typeName)

/-! ### Operators that change their left operand -/

/-- Applies an operator and may change the left operand: lists grow and dictionaries take entries over. -/
def update (op : BinaryOp) (a b : Value) : Work Value := do
  match op, a, (← get).items? b with
  | .add, .list x, some more =>
    let items ← mutableList "apply += to" x
    put x (.list (items ++ more.toArray) 0)
    return a
  | _, _, _ =>
    match op, a, b with
    | .bitOr, .dict x, .dict y =>
      let entries ← mutableDict "apply |= to" x
      let more := (← get).dictEntries y
      put x (.dict (more.foldl (fun entries (k, v) => Value.store k v entries) entries) 0)
      return a
    | op, a, b => binary op a b

end Work

end TapeMachine.Script
