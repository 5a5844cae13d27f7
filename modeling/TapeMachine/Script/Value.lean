/-
Values of scripts and where they are kept.

Numbers, texts and tuples are what they are; lists, dictionaries, sets and functions are kept in a store
and known by their address, so that a change shows everywhere.

* `Value` is a value, `Object` what an address leads to, `Store` all objects;
* `Value.typeName` is the name of a value's type;
* `Store.write` writes a value as it stands in a script, `Store.print` writes texts without quotes.
-/
import TapeMachine.Number.Double
import TapeMachine.Script.Tree
import TapeMachine.Text.Quoted

namespace TapeMachine.Script

/-- The functions that every script has. -/
inductive Builtin where
  | abs | all | any | bool | bytes | chr | dict | dir | enumerate | fail | float | getattr | hasattr | hash
  | int | len | list | max | min | ord | print | range | repr | reversed | set | sorted | str | tuple
  | typeOf | zip
deriving DecidableEq, Repr

namespace Builtin

/-- The name of a function. -/
def name : Builtin → String
  | abs => "abs"
  | all => "all"
  | any => "any"
  | bool => "bool"
  | bytes => "bytes"
  | chr => "chr"
  | dict => "dict"
  | dir => "dir"
  | enumerate => "enumerate"
  | fail => "fail"
  | float => "float"
  | getattr => "getattr"
  | hasattr => "hasattr"
  | hash => "hash"
  | int => "int"
  | len => "len"
  | list => "list"
  | max => "max"
  | min => "min"
  | ord => "ord"
  | print => "print"
  | range => "range"
  | repr => "repr"
  | reversed => "reversed"
  | set => "set"
  | sorted => "sorted"
  | str => "str"
  | tuple => "tuple"
  | typeOf => "type"
  | zip => "zip"

/-- Every function. -/
def every : List Builtin :=
  [abs, all, any, bool, bytes, chr, dict, dir, enumerate, fail, float, getattr, hasattr, hash, int, len,
    list, max, min, ord, print, range, repr, reversed, set, sorted, str, tuple, typeOf, zip]

end Builtin

/-- The ways to take a text apart without copying it. -/
inductive View where
  | elems
  | elemOrds
  | codepoints
  | codepointOrds
  | byteElems
deriving DecidableEq, Repr

/-- The member that gives a view. -/
def View.name : View → String
  | elems => "elems"
  | elemOrds => "elem_ords"
  | codepoints => "codepoints"
  | codepointOrds => "codepoint_ords"
  | byteElems => "elems"

/-- A value. -/
inductive Value where
  | none
  | bool (value : Bool)
  | int (value : Int)
  /-- A floating point number of 64 bits. -/
  | float (bits : Nat)
  | text (value : Bytes)
  | bytes (value : Bytes)
  | tuple (items : List Value)
  | range (start stop step : Int)
  | list (address : Nat)
  | dict (address : Nat)
  | set (address : Nat)
  | function (address : Nat)
  | builtin (function : Builtin)
  /-- A function of a value; two of them are the same only if they were looked up once. -/
  | method (serial : Nat) (receiver : Value) (name : String)
  /-- A function that the host of the script lends to it. -/
  | host (number : Nat)
  | view (kind : View) (value : Bytes)
deriving Repr, Inhabited

/-- What the names of a part of a script stand for is kept at an address. -/
structure Scope where
  address : Nat
  names : List String
  /-- Whether the names are those outside of functions. -/
  isGlobal : Bool := false
deriving DecidableEq, Repr

/-- A function of a script. -/
structure Closure where
  name : String
  /-- What tells the function apart from those written elsewhere: the number of the chunk and the place. -/
  code : Nat × Position
  parameters : List (Parameter × Option Value)
  body : List Stmt
  /-- The scopes around the function, innermost first. -/
  scopes : List Scope
  /-- The place of the first operation of the body. -/
  entry : Option Position

/-- What an address leads to. Lists, dictionaries and sets must not change while `readers` loops go over
them. -/
inductive Object where
  | list (items : Array Value) (readers : Nat)
  | dict (entries : List (Value × Value)) (readers : Nat)
  | set (items : List Value) (readers : Nat)
  | scope (values : List (String × Value))
  | closure (closure : Closure)

/-- The objects of a script. -/
structure Store where
  objects : Array Object := #[]
  /-- The functions that the host lends. -/
  hosts : Array (Int → Int) := #[]
  /-- The number of functions of values that were looked up. -/
  methods : Nat := 0
  /-- The lines that were printed, newest first. -/
  printed : List Bytes := []

/-- An operation on the store that may fail with a message. -/
abbrev Work := EStateM Bytes Store

/-- Fails with a message. -/
def complain {α : Type} (message : String) : Work α :=
  throw (utf8 message)

namespace Value

/-- The name of a value's type. -/
def typeName : Value → String
  | none => "NoneType"
  | bool _ => "bool"
  | int _ => "int"
  | float _ => "float"
  | text _ => "string"
  | bytes _ => "bytes"
  | tuple _ => "tuple"
  | range .. => "range"
  | list _ => "list"
  | dict _ => "dict"
  | set _ => "set"
  | function _ => "function"
  | builtin _ | method .. | host _ => "builtin_function_or_method"
  | view .elems _ | view .elemOrds _ => "string.elems"
  | view .codepoints _ | view .codepointOrds _ => "string.codepoints"
  | view .byteElems _ => "bytes.elems"

/-- The number of items of a range. -/
def rangeLength (start stop step : Int) : Nat :=
  if 0 < step then (if start < stop then (stop - 1 - start) / step + 1 else 0).toNat
  else if step < 0 then (if stop < start then (start - 1 - stop) / -step + 1 else 0).toNat
  else 0

/-- The items of a range. -/
def rangeItems (start stop step : Int) : List Value :=
  (List.range (rangeLength start stop step)).map fun (i : Nat) => .int (start + step * i)

/-- The items of a view. -/
def viewItems (kind : View) (s : Bytes) : List Value :=
  match kind with
  | .elems => s.map fun b => .text [b]
  | .elemOrds | .byteElems => s.map fun b => .int b.toNat
  | .codepoints => (Utf8.replaceInvalid s).map fun c => .text (Utf8.encodeChar c)
  | .codepointOrds => (Utf8.replaceInvalid s).map fun c => .int c.toNat

end Value

namespace Store

/-- The items of a list. -/
def listItems (s : Store) (address : Nat) : Array Value :=
  match s.objects[address]? with
  | some (.list items _) => items
  | _ => #[]

/-- The entries of a dictionary. -/
def dictEntries (s : Store) (address : Nat) : List (Value × Value) :=
  match s.objects[address]? with
  | some (.dict entries _) => entries
  | _ => []

/-- The items of a set. -/
def setItems (s : Store) (address : Nat) : List Value :=
  match s.objects[address]? with
  | some (.set items _) => items
  | _ => []

/-- The values of a scope. -/
def scopeValues (s : Store) (address : Nat) : List (String × Value) :=
  match s.objects[address]? with
  | some (.scope values) => values
  | _ => []

/-- The function at an address. -/
def closure? (s : Store) (address : Nat) : Option Closure :=
  match s.objects[address]? with
  | some (.closure c) => some c
  | _ => none

/-- Whether a value counts as true. -/
def truth (s : Store) : Value → Bool
  | .none => false
  | .bool value => value
  | .int value => value ≠ 0
  | .float bits => !Number.Double.isZero bits
  | .text value => !value.isEmpty
  | .bytes value => !value.isEmpty
  | .tuple items => !items.isEmpty
  | .range start stop step => Value.rangeLength start stop step ≠ 0
  | .list a => !(s.listItems a).isEmpty
  | .dict a => !(s.dictEntries a).isEmpty
  | .set a => !(s.setItems a).isEmpty
  | .function _ | .builtin _ | .method .. | .host _ | .view .. => true

/-- The items that a loop over a value goes through, if it can be gone through. -/
def items? (s : Store) : Value → Option (List Value)
  | .tuple items => some items
  | .range start stop step => some (Value.rangeItems start stop step)
  | .list a => some (s.listItems a).toList
  | .dict a => some ((s.dictEntries a).map (·.1))
  | .set a => some (s.setItems a)
  | .view kind text => some (Value.viewItems kind text)
  | _ => none

/-- The number of items of a value, if it has one. -/
def length? (s : Store) : Value → Option Nat
  | .text value => some value.length
  | .bytes value => some value.length
  | .tuple items => some items.length
  | .range start stop step => some (Value.rangeLength start stop step)
  | .list a => some (s.listItems a).size
  | .dict a => some (s.dictEntries a).length
  | .set a => some (s.setItems a).length
  | .view .elems text | .view .elemOrds text | .view .byteElems text => some text.length
  | _ => none

/-! ### Text -/

/-- A deeper value than this is cut off. -/
def writeDepth : Nat := 100000

mutual

/-- A value as it stands in a script, inside the lists and dictionaries at some addresses. -/
def writeWithin (s : Store) (fuel : Nat) (around : List Nat) (v : Value) : Bytes :=
  match fuel with
  | 0 => utf8 "..."
  | fuel + 1 =>
    match v with
    | .none => utf8 "None"
    | .bool value => utf8 (if value then "True" else "False")
    | .int value => utf8 (decimalInt value)
    | .float bits => utf8 (Number.Double.text bits)
    | .text value => Quoted.quote value
    | .bytes value => 98 :: Quoted.quote value
    | .tuple [item] => 40 :: writeWithin s fuel around item ++ utf8 ",)"
    | .tuple items => 40 :: writeItems s fuel around items ++ [41]
    | .range start stop step =>
      utf8 (if step ≠ 1 then
          "range(" ++ decimalInt start ++ ", " ++ decimalInt stop ++ ", " ++ decimalInt step ++ ")"
        else if start ≠ 0 then "range(" ++ decimalInt start ++ ", " ++ decimalInt stop ++ ")"
        else "range(" ++ decimalInt stop ++ ")")
    | .list a =>
      if around.contains a then utf8 "[...]"
      else 91 :: writeItems s fuel (a :: around) (s.listItems a).toList ++ [93]
    | .dict a =>
      if around.contains a then utf8 "\x7b...\x7d"
      else
        let entries := (s.dictEntries a).map fun (key, value) =>
          writeWithin s fuel around key ++ utf8 ": " ++ writeWithin s fuel (a :: around) value
        123 :: Bytes.joinWith (utf8 ", ") entries ++ [125]
    | .set a => utf8 "set([" ++ writeItems s fuel around (s.setItems a) ++ utf8 "])"
    | .function a =>
      utf8 ("<function " ++ ((s.closure? a).map (·.name)).getD "" ++ ">")
    | .builtin f => utf8 ("<built-in function " ++ f.name ++ ">")
    | .method _ receiver name =>
      utf8 ("<built-in method " ++ name ++ " of " ++ receiver.typeName ++ " value>")
    | .host _ => utf8 "<built-in function >"
    | .view .byteElems text => 98 :: Quoted.quote text ++ utf8 ".elems()"
    | .view kind text => Quoted.quote text ++ utf8 ("." ++ kind.name ++ "()")

/-- Values with commas between them. -/
def writeItems (s : Store) (fuel : Nat) (around : List Nat) (items : List Value) : Bytes :=
  match fuel with
  | 0 => utf8 "..."
  | fuel + 1 => Bytes.joinWith (utf8 ", ") (items.map (writeWithin s fuel around))

end

/-- A value as it stands in a script. -/
def write (s : Store) (v : Value) : Bytes :=
  s.writeWithin writeDepth [] v

/-- A value as it is printed: texts without quotes. -/
def print (s : Store) : Value → Bytes
  | .text value => value
  | v => s.write v

end Store

/-! ### Work on the store -/

namespace Work

/-- A new address for an object. -/
def allocate (o : Object) : Work Nat :=
  modifyGet fun s => (s.objects.size, { s with objects := s.objects.push o })

/-- Puts an object at an address. -/
def put (address : Nat) (o : Object) : Work Unit :=
  modify fun s => { s with objects := s.objects.setIfInBounds address o }

/-- A new list. -/
def newList (items : List Value) : Work Value :=
  return .list (← allocate (.list items.toArray 0))

/-- A new set. -/
def newSet (items : List Value) : Work Value :=
  return .set (← allocate (.set items 0))

/-- A new dictionary. -/
def newDict (entries : List (Value × Value)) : Work Value :=
  return .dict (← allocate (.dict entries 0))

/-- Changes by how many loops a value is gone over. -/
def countReaders (change : Nat → Nat) (v : Value) : Work Unit := do
  let address? := match v with
    | .list a | .dict a | .set a => some a
    | _ => none
  match address? with
  | none => pure ()
  | some a =>
    match (← get).objects[a]? with
    | some (.list items n) => put a (.list items (change n))
    | some (.dict entries n) => put a (.dict entries (change n))
    | some (.set items n) => put a (.set items (change n))
    | _ => pure ()

/-- Refuses a change while loops go over the object at an address. `verb` names the change, and `what`
the object. -/
def checkMutable (verb what : String) (readers : Nat) : Work Unit := do
  if readers ≠ 0 then complain ("cannot " ++ verb ++ " " ++ what ++ " during iteration")

/-- The items of a list that is about to change. -/
def mutableList (verb : String) (address : Nat) : Work (Array Value) := do
  match (← get).objects[address]? with
  | some (.list items readers) => checkMutable verb "list" readers; return items
  | _ => return #[]

/-- The entries of a dictionary that is about to change. -/
def mutableDict (verb : String) (address : Nat) : Work (List (Value × Value)) := do
  match (← get).objects[address]? with
  | some (.dict entries readers) => checkMutable verb "hash table" readers; return entries
  | _ => return []

/-- The items of a set that is about to change. -/
def mutableSet (verb : String) (address : Nat) : Work (List Value) := do
  match (← get).objects[address]? with
  | some (.set items readers) => checkMutable verb "hash table" readers; return items
  | _ => return []

end Work

end TapeMachine.Script
