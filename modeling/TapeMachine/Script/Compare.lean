/-
Comparing values, and looking keys up.

Numbers compare by their value, whatever their type; sequences compare item by item; dictionaries and sets
compare by what they hold; functions are equal only to themselves. Values of different types are unequal
and have no order.

* `Store.compare` decides a comparison, `Store.equals` equality;
* `Value.unhashable?` says why a value cannot be a key;
* `Value.sameKey` decides whether two keys are one;
* `Work.getKey`, `Work.setKey`, `Work.deleteKey`, `Work.insert`, `Work.remove` work on dictionaries and
  sets.
-/
import TapeMachine.Script.Value

namespace TapeMachine.Script

open Number (Double.order Double.orderInt)

/-- The order of byte strings. -/
def bytesOrder : Bytes → Bytes → Ordering
  | [], [] => .eq
  | [], _ :: _ => .lt
  | _ :: _, [] => .gt
  | a :: s, b :: t => if a < b then .lt else if b < a then .gt else bytesOrder s t

/-- Whether a comparison holds for an order. -/
def BinaryOp.holds (op : BinaryOp) (o : Ordering) : Bool :=
  match op with
  | .equal => o == .eq
  | .different => o != .eq
  | .less => o == .lt
  | .greater => o == .gt
  | .atMost => o != .gt
  | .atLeast => o != .lt
  | _ => false

namespace Value

/-- The order of two numbers. -/
def numberOrder? : Value → Value → Option Ordering
  | int a, int b => some (compare a b)
  | int a, float b => some (Double.orderInt a b)
  | float a, int b => some (Double.orderInt b a).swap
  | float a, float b => some (Double.order a b)
  | _, _ => Option.none

/-- Whether two functions or views are the same. -/
def isSame : Value → Value → Bool
  | none, none => true
  | function a, function b => a = b
  | builtin f, builtin g => f = g
  | method i _ _, method j _ _ => i = j
  | host i, host j => i = j
  | view k s, view l t => k = l && s = t
  | _, _ => false

mutual

/-- Why a value cannot be a key: because it can change, or holds something that can. -/
def unhashable? : Value → Option String
  | list _ => some "unhashable type: list"
  | dict _ => some "unhashable type: dict"
  | set _ => some "unhashable type: set"
  | range .. => some "unhashable: range"
  | view kind s => some ("unhashable: " ++ (view kind s).typeName)
  | tuple items => firstUnhashable? items
  | _ => Option.none

/-- Why one of several values cannot be a key. -/
def firstUnhashable? : List Value → Option String
  | [] => Option.none
  | v :: rest => unhashable? v <|> firstUnhashable? rest

end

mutual

/-- Whether two keys are one. -/
def sameKey : Value → Value → Bool
  | bool a, bool b => a = b
  | text a, text b => a = b
  | bytes a, bytes b => a = b
  | tuple a, tuple b => sameKeys a b
  | a, b =>
    match numberOrder? a b with
    | some o => o == .eq
    | Option.none => isSame a b

/-- Whether the keys of two lists are the same. -/
def sameKeys : List Value → List Value → Bool
  | [], [] => true
  | a :: as, b :: bs => sameKey a b && sameKeys as bs
  | _, _ => false

end

/-- Whether one of several values is the same key. -/
def isKeyIn (v : Value) (items : List Value) : Bool :=
  items.any (sameKey v)

/-- The value of a key. -/
def lookup? (key : Value) (entries : List (Value × Value)) : Option Value :=
  (entries.find? fun (k, _) => sameKey key k).map (·.2)

/-- Entries with a value for a key, which stays at its place. -/
def store (key value : Value) (entries : List (Value × Value)) : List (Value × Value) :=
  if (lookup? key entries).isSome then
    entries.map fun (k, v) => if sameKey key k then (k, value) else (k, v)
  else entries ++ [(key, value)]

end Value

/-- The result of comparing two values of types that have no such comparison. -/
def BinaryOp.ofDifferent (op : BinaryOp) (a b : Value) : Except Bytes Bool :=
  match op with
  | .equal => .ok false
  | .different => .ok true
  | _ => .error (utf8 (a.typeName ++ " " ++ op.spelling ++ " " ++ b.typeName ++ " not implemented"))

/-- Compares by equality alone. -/
def BinaryOp.byEquality (op : BinaryOp) (a b : Value) (equal : Except Bytes Bool) : Except Bytes Bool :=
  match op with
  | .equal => equal
  | .different => equal.map (!·)
  | _ => op.ofDifferent a b

/-- Compares item by item: the first items that differ decide, and otherwise the lengths. -/
def compareSequences (compare : BinaryOp → Value → Value → Except Bytes Bool) (op : BinaryOp) :
    List Value → List Value → Except Bytes Bool
  | a :: as, b :: bs => do
    if ← compare .equal a b then compareSequences compare op as bs
    else match op with
      | .equal => return false
      | .different => return true
      | op => compare op a b
  | as, bs => .ok (op.holds (Ord.compare as.length bs.length))

/-- Compares sequences, at once if only lengths have to differ. -/
def compareItems (compare : BinaryOp → Value → Value → Except Bytes Bool) (op : BinaryOp)
    (as bs : List Value) : Except Bytes Bool :=
  if as.length ≠ bs.length && (op = .equal || op = .different) then .ok (op = .different)
  else compareSequences compare op as bs

/-- Whether every entry has an equal one among others. -/
def entriesCovered (equal : Value → Value → Except Bytes Bool) (others : List (Value × Value)) :
    List (Value × Value) → Except Bytes Bool
  | [] => .ok true
  | (key, value) :: rest =>
    match Value.lookup? key others with
    | none => .ok false
    | some other => do
      if ← equal value other then entriesCovered equal others rest else return false

/-- Compares sets by what they hold. -/
def compareSets (op : BinaryOp) (as bs : List Value) : Bool :=
  let within (xs ys : List Value) : Bool := xs.all fun x => x.isKeyIn ys
  match op with
  | .equal => as.length = bs.length && within as bs
  | .different => !(as.length = bs.length && within as bs)
  | .atMost => within as bs
  | .atLeast => within bs as
  | .less => as.length < bs.length && within as bs
  | .greater => bs.length < as.length && within bs as
  | _ => false

/-- Whether two ranges go through the same numbers. -/
def sameRange (a b c a' b' c' : Int) : Bool :=
  let n := Value.rangeLength a b c
  n = Value.rangeLength a' b' c' && (n = 0 || a = a' && (n = 1 || c = c'))

namespace Store

/-- Values that lie deeper in each other are not compared. -/
def compareDepth : Nat := 10

/-- Compares two values that lie at most `depth` deep in each other. -/
def compareWithin (s : Store) : Nat → BinaryOp → Value → Value → Except Bytes Bool
  | 0, _, _, _ => .error (utf8 "comparison exceeded maximum recursion depth")
  | depth + 1, op, a, b =>
    match a, b with
    | .bool x, .bool y => .ok (op.holds (compare x.toNat y.toNat))
    | .text x, .text y => .ok (op.holds (bytesOrder x y))
    | .bytes x, .bytes y => .ok (op.holds (bytesOrder x y))
    | .tuple x, .tuple y => compareItems (compareWithin s depth) op x y
    | .list x, .list y =>
      compareItems (compareWithin s depth) op (s.listItems x).toList (s.listItems y).toList
    | .dict x, .dict y =>
      op.byEquality a b <|
        if (s.dictEntries x).length ≠ (s.dictEntries y).length then .ok false
        else entriesCovered (compareWithin s depth .equal) (s.dictEntries y) (s.dictEntries x)
    | .set x, .set y => .ok (compareSets op (s.setItems x) (s.setItems y))
    | .range x y z, .range x' y' z' => op.byEquality a b (.ok (sameRange x y z x' y' z'))
    | a, b =>
      match Value.numberOrder? a b with
      | some o => .ok (op.holds o)
      | none => op.byEquality a b (.ok (Value.isSame a b))

/-- Compares two values. -/
def compare (s : Store) (op : BinaryOp) (a b : Value) : Except Bytes Bool :=
  s.compareWithin compareDepth op a b

/-- Whether two values are equal. -/
def equals (s : Store) (a b : Value) : Except Bytes Bool :=
  s.compare .equal a b

end Store

namespace Work

/-- Decides a comparison. -/
def compare (op : BinaryOp) (a b : Value) : Work Bool := do
  match (← get).compare op a b with
  | .ok r => return r
  | .error e => throw e

/-- Whether two values are equal. -/
def equals (a b : Value) : Work Bool :=
  compare .equal a b

/-- Refuses a value that cannot be a key. -/
def checkKey (key : Value) : Work Unit :=
  match key.unhashable? with
  | some message => complain message
  | none => pure ()

/-- The value of a key in the dictionary at an address. -/
def getKey (address : Nat) (key : Value) : Work (Option Value) := do
  checkKey key
  return key.lookup? ((← get).dictEntries address)

/-- Gives a key a value in the dictionary at an address. -/
def setKey (address : Nat) (key value : Value) : Work Unit := do
  let entries ← mutableDict "insert into" address
  checkKey key
  put address (.dict (Value.store key value entries) 0)

/-- Takes a key out of the dictionary at an address, and gives the value it had. -/
def deleteKey (address : Nat) (key : Value) : Work (Option Value) := do
  let entries ← mutableDict "delete from" address
  if entries.isEmpty then return none
  checkKey key
  put address (.dict (entries.filter fun (k, _) => !key.sameKey k) 0)
  return key.lookup? entries

/-- Puts a value into the set at an address. -/
def insert (address : Nat) (item : Value) : Work Unit := do
  let items ← mutableSet "insert into" address
  checkKey item
  if !item.isKeyIn items then put address (.set (items ++ [item]) 0)

/-- Takes a value out of the set at an address, and tells whether it was there. -/
def remove (address : Nat) (item : Value) : Work Bool := do
  let items ← mutableSet "delete from" address
  if items.isEmpty then return false
  checkKey item
  put address (.set (items.filter (!item.sameKey ·)) 0)
  return item.isKeyIn items

end Work

end TapeMachine.Script
