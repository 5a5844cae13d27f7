/-
The functions that every script has, apart from those that call other functions.

* `Builtin.apply` applies a function;
* `Value.memberNames` are the names of a value's own functions.
-/
import TapeMachine.Script.Arguments
import TapeMachine.Text.Case
import TapeMachine.Text.Letter

namespace TapeMachine.Script

open Number

/-- The names of a value's own functions, in order. -/
def Value.memberNames : Value → List String
  | .text _ => ["capitalize", "codepoint_ords", "codepoints", "count", "elem_ords", "elems", "endswith",
      "find", "format", "index", "isalnum", "isalpha", "isdigit", "islower", "isspace", "istitle", "isupper",
      "join", "lower", "lstrip", "partition", "removeprefix", "removesuffix", "replace", "rfind", "rindex",
      "rpartition", "rsplit", "rstrip", "split", "splitlines", "startswith", "strip", "title", "upper"]
  | .bytes _ => ["elems"]
  | .list _ => ["append", "clear", "extend", "index", "insert", "pop", "remove"]
  | .dict _ => ["clear", "get", "items", "keys", "pop", "popitem", "setdefault", "update", "values"]
  | .set _ => ["add", "clear", "difference", "discard", "intersection", "issubset", "issuperset", "pop",
      "remove", "symmetric_difference", "union"]
  | _ => []

namespace Work

/-- A function of a value, looked up anew. -/
def bindMember (v : Value) (name : String) : Work Value :=
  modifyGet fun s => (.method s.methods v name, { s with methods := s.methods + 1 })

/-- The message for a member that a value does not have. -/
def noMember (v : Value) (name : String) : String :=
  v.typeName ++ " has no ." ++ name ++ " field or method"

/-- A member of a value. -/
def getMember (v : Value) (name : String) : Work Value := do
  if v.memberNames.contains name then bindMember v name
  else
    let hint := match Spelling.nearest name v.memberNames with
      | some n => " (did you mean ." ++ n ++ "?)"
      | none => ""
    complain (noMember v name ++ hint)

/-! ### Entries from sequences -/

/-- Puts the pairs of a sequence into the dictionary at an address. -/
def putPairs (address : Nat) (pairs : List (Value × Nat)) : Work Unit :=
  pairs.forM fun (pair, i) => do
    let element := "dictionary update sequence element #" ++ decimal i
    let s ← get
    match s.items? pair with
    | none => complain (element ++ " is not iterable (" ++ pair.typeName ++ ")")
    | some items =>
      match s.length? pair, items with
      | none, _ => complain (element ++ " has unknown length (" ++ pair.typeName ++ ")")
      | some _, [key, value] => setKey address key value
      | some n, _ => complain (element ++ " has length " ++ decimal n ++ ", want 2")

/-- The first name that comes twice. -/
def repeatedName? : List Bytes → Option Bytes
  | [] => none
  | name :: rest => if rest.contains name then some name else repeatedName? rest

/-- Puts entries or pairs, then named arguments, into the dictionary at an address. -/
def putAll (address : Nat) (a : Arguments) : Work Unit := do
  match a.positional with
  | .dict other :: _ => ((← get).dictEntries other).forM fun (k, v) => setKey address k v
  | v :: _ =>
    match (← get).items? v with
    | some items => putPairs address items.zipIdx
    | none => complain ("got " ++ v.typeName ++ ", want iterable")
  | [] => pure ()
  a.named.forM fun (name, v) => setKey address (.text name) v
  match repeatedName? (a.named.map (·.1)) with
  | some name => throw (utf8 "duplicate keyword arg: " ++ Quoted.quote name)
  | none => pure ()

/-! ### Single functions -/

/-- The bytes that a value stands for. -/
def toBytes (v : Value) : Work Value := do
  match v with
  | .bytes s => return .bytes s
  | .text s => return .bytes (utf8 (String.ofList (Utf8.replaceInvalid s)))
  | v =>
    match (← get).items? v with
    | none => complain ("bytes: got " ++ v.typeName ++ ", want string, bytes, or iterable of ints")
    | some items =>
      let bytes ← items.zipIdx.mapM fun (item, i) =>
        match item with
        | .int n =>
          if 0 ≤ n ∧ n < 256 then pure n.toNat.toUInt8
          else complain ("bytes: at index " ++ decimal i ++ ", " ++ decimalInt n ++
            " out of range (want value in unsigned 8-bit range)")
        | item => complain ("bytes: at index " ++ decimal i ++ ", got " ++ item.typeName ++ ", want int")
      return .bytes bytes

/-- The character with a code point. -/
def toChar (v : Value) : Work Value := do
  match v.toInt32 with
  | .error e => complain ("chr: " ++ e)
  | .ok i =>
    if i < 0 then complain ("chr: Unicode code point " ++ decimalInt i ++ " out of range (<0)")
    if 0x10FFFF < i then
      complain ("chr: Unicode code point U+" ++
        (String.ofList (Nat.toDigits 16 i.toNat)).toUpper ++ " out of range (>0x10FFFF)")
    let n := i.toNat
    return .text (Utf8.encodeChar (if 0xD800 ≤ n ∧ n < 0xE000 then Utf8.replacement else Char.ofNat n))

/-- The code point of a text that is one character, or the value of a single byte. -/
def toOrd (v : Value) : Work Value := do
  match v with
  | .text s =>
    match Utf8.next s with
    | some (r, []) => return .int (Utf8.Rune.toChar r).toNat
    | _ => complain ("ord: string encodes " ++ decimal (Utf8.runes s).length ++ " Unicode code points, want 1")
  | .bytes [b] => return .int b.toNat
  | .bytes s => complain ("ord: bytes has length " ++ decimal s.length ++ ", want 1")
  | v => complain ("ord: got " ++ v.typeName ++ ", want string or bytes")

/-- The floating point number that a text names. -/
def parseFloat (s : Bytes) : Work Value := do
  if s.isEmpty then complain "float: empty string"
  let unsigned := match s with
    | 43 :: rest => rest
    | 45 :: rest => rest
    | s => s
  if unsigned.map lowerByte = utf8 "nan" then return .float Double.nan
  match Number.parseFloat .double s with
  | .ok bits => return .float bits
  | .error .outOfRange => complain "floating-point number too large"
  | .error _ => throw (utf8 "invalid float literal: " ++ s)

/-- A floating point number from a value. -/
def toFloatValue (a : Arguments) : Work Value := do
  if !a.named.isEmpty then complain "float does not accept keyword arguments"
  match a.positional with
  | [] => return .float 0
  | [.bool b] => return .float (if b then (Double.ofInt? 1).getD 0 else 0)
  | [.int i] => return .float (← toFloat i)
  | [.float bits] => return .float bits
  | [.text s] => parseFloat s
  | [v] => complain ("float got " ++ v.typeName ++ ", want number or string")
  | vs => complain ("float got " ++ decimal vs.length ++ " arguments, wants 1")

/-- The value of digits in a base, of which there is at least one. -/
def digits? (base : Nat) (s : Bytes) : Option Nat :=
  if s.isEmpty then none
  else s.foldl (fun n c => do
    let n ← n
    let d ← digitValue? c
    if d < base then some (n * base + d) else none) (some 0)

/-- The base that the first characters of a number name. -/
def namedBase? : Bytes → Option Nat
  | 48 :: c :: _ :: _ =>
    let c := lowerByte c
    if c = 111 then some 8 else if c = 120 then some 16 else if c = 98 then some 2 else none
  | _ => none

/-- The whole number that a text is in a base; zero takes the base from the text. -/
def parseInt? (s : Bytes) (base : Nat) : Option Int :=
  let (negative, s) := match s with
    | 43 :: rest => (false, rest)
    | 45 :: rest => (true, rest)
    | s => (false, s)
  let signed (n : Nat) : Int := if negative then -n else n
  match namedBase? s with
  | some named =>
    if base = 0 || base = named then (digits? named (s.drop 2)).map signed
    else (digits? base s).map signed
  | none =>
    if base = 0 then
      if 1 < s.length && s.head? = some 48 then if s.all (· = 48) then some 0 else none
      else (digits? 10 s).map signed
    else (digits? base s).map signed

/-- A whole number from a value and a base. -/
def toIntValue (v : Value) (base : Option Value) : Work Value := do
  match v, base with
  | .text s, base =>
    let b ← match base with
      | none => pure 10
      | some b =>
        match b.toInt32 with
        | .error _ => complain ("int: for base, got " ++ b.typeName ++ ", want int")
        | .ok b =>
          if b ≠ 0 ∧ (b < 2 ∨ 36 < b) then complain "int: base must be an integer >= 2 && <= 36"
          else pure b.toNat
    match parseInt? s b with
    | some i => return .int i
    | none => throw (utf8 ("int: invalid literal with base " ++ decimal b ++ ": ") ++ s)
  | _, some _ => complain "int: can't convert non-string with explicit base"
  | .bool b, none => return .int (if b then 1 else 0)
  | v, none =>
    match v.toInt with
    | .ok i => return .int i
    | .error e => complain ("int: " ++ e)

/-- The UTF-16 units of a character. -/
def units (c : Char) : List Nat :=
  let n := c.toNat
  if n < 0x10000 then [n] else [0xD800 + (n - 0x10000) / 1024, 0xDC00 + (n - 0x10000) % 1024]

/-- A number for a text or for bytes, the same in every run. -/
def hash (v : Value) : Work Value := do
  match v with
  | .text s =>
    let h : Nat := ((Utf8.replaceInvalid s).flatMap units).foldl
      (fun h u => (h * 31 + u) % Nat.pow 2 32) 0
    return .int (if Nat.pow 2 31 ≤ h then (h : Int) - Nat.pow 2 32 else h)
  | .bytes s =>
    return .int (s.foldl (fun h b => ((h ^^^ b.toNat) * 16777619) % Nat.pow 2 32) 2166136261 : Nat)
  | v => complain ("hash: got " ++ v.typeName ++ ", want string or bytes")

/-- Values with a separator between them. -/
def joined (sep : Bytes) (values : List Value) (show' : Store → Value → Bytes) : Work Bytes := do
  let s ← get
  return Bytes.joinWith sep (values.map (show' s))

/-- The separator that a function is given by name. -/
def separator (function : String) (named : List (Bytes × Value)) : Work Bytes := do
  let wanted : Arguments.Wanted := ⟨"sep", true, fun v => discard (Arguments.text v)⟩
  match ← Arguments.byName function [wanted] { named } with
  | [some (.text s)] => return s
  | _ => return [32]

/-- Prints values on a line. -/
def printLine (a : Arguments) : Work Value := do
  let sep ← separator "print" a.named
  let line ← joined sep a.positional fun s v => match v with
    | .bytes b => b
    | v => s.print v
  modify fun s => { s with printed := line :: s.printed }
  return .none

/-- A range of whole numbers. -/
def newRange (a : Arguments) : Work Value := do
  let vs ← a.inOrder "range" 1 3
  let numbers ← vs.zipIdx.mapM fun (v, i) => Arguments.nth "range" (i + 1) Arguments.whole v
  match numbers with
  | [stop] => return .range 0 stop 1
  | [start, stop] => return .range start stop 1
  | [start, stop, step] =>
    if step = 0 then complain "range: step argument must not be zero"
    return .range start stop step
  | _ => return .range 0 0 1

/-- The rows of several sequences, as many as the shortest has items. -/
def rows : Nat → List (List Value) → List Value
  | 0, _ => []
  | n + 1, columns =>
    .tuple (columns.map fun c => c.headD .none) :: rows n (columns.map (·.drop 1))

/-- Joins sequences item by item. -/
def zip (a : Arguments) : Work Value := do
  if !a.named.isEmpty then complain "zip does not accept keyword arguments"
  let columns ← a.positional.zipIdx.mapM fun (v, i) => do
    match (← get).items? v with
    | some items => pure items
    | none => complain ("zip: argument #" ++ decimal (i + 1) ++ " is not iterable: " ++ v.typeName)
  newList (rows ((columns.map List.length).min?.getD 0) columns)

/-- The items of the only argument, which may be left out. -/
def itemsOrNone (function : String) (a : Arguments) : Work (List Value) := do
  match ← a.inOrder function 0 1 with
  | v :: _ => Arguments.nth function 1 Arguments.items v
  | [] => return []

/-- The items of the only argument. -/
def itemsOf (function : String) (a : Arguments) : Work (List Value) := do
  match ← a.inOrder function 1 1 with
  | v :: _ => Arguments.nth function 1 Arguments.items v
  | [] => return []

/-- The only argument. -/
def only (function : String) (a : Arguments) : Work Value := do
  return (← a.inOrder function 1 1).headD .none

/-- A member by its name, or a given value if there is none. -/
def memberOr (a : Arguments) : Work Value := do
  let vs ← a.inOrder "getattr" 2 3
  let name ← Arguments.nth "getattr" 2 Arguments.text ((vs[1]?).getD .none)
  let v := vs.headD .none
  let name := String.ofList (Utf8.replaceInvalid name)
  if v.memberNames.contains name then bindMember v name
  else match vs[2]? with
    | some fallback => return fallback
    | none => complain ("getattr: " ++ noMember v name)

/-- A new set of values. -/
def setOf (items : List Value) : Work Value := do
  let address ← allocate (.set [] 0)
  Arguments.blaming "set: " (items.forM (insert address))
  return .set address

end Work

open Work in
/-- Applies one of the functions that every script has. Those that call other functions are applied
elsewhere. -/
def Builtin.apply (f : Builtin) (a : Arguments) : Work Value := do
  match f with
  | abs =>
    match ← only "abs" a with
    | .float bits => return .float (Double.magnitude bits)
    | .int i => return .int i.natAbs
    | v => complain ("got " ++ v.typeName ++ ", want int or float")
  | all => return .bool ((← itemsOf "all" a).all (← get).truth)
  | any => return .bool ((← itemsOf "any" a).any (← get).truth)
  | bool => return .bool ((← get).truth ((← a.inOrder "bool" 0 1).headD (.bool false)))
  | bytes => toBytes (← a.single "bytes" "exactly 1")
  | chr => toChar (← a.single "chr" "1")
  | dict =>
    if 1 < a.positional.length then
      complain ("dict: got " ++ decimal a.positional.length ++ " arguments, want at most 1")
    let address ← allocate (.dict [] 0)
    Arguments.blaming "dict: " (putAll address a)
    return .dict address
  | dir => newList ((← a.single "dir" "1").memberNames.map fun name => .text (utf8 name))
  | enumerate =>
    let vs ← a.inOrder "enumerate" 1 2
    let items ← Arguments.nth "enumerate" 1 Arguments.items (vs.headD .none)
    let start := (← Arguments.nth? "enumerate" 2 Arguments.whole vs).getD 0
    newList (items.zipIdx.map fun (v, i) => .tuple [.int (start + i), v])
  | fail =>
    let sep ← separator "fail" a.named
    throw (utf8 "fail: " ++ (← joined sep a.positional Store.print))
  | float => toFloatValue a
  | getattr => memberOr a
  | hasattr =>
    let vs ← a.inOrder "hasattr" 2 2
    let name ← Arguments.nth "hasattr" 2 Arguments.text ((vs[1]?).getD .none)
    return .bool ((vs.headD .none).memberNames.any fun n => utf8 n = name)
  | hash => Work.hash (← only "hash" a)
  | int =>
    let wanted : List Arguments.Wanted :=
      [⟨"x", false, fun _ => pure ()⟩, ⟨"base", true, fun _ => pure ()⟩]
    match ← Arguments.byName "int" wanted a with
    | [some v, base] => toIntValue v base
    | _ => return .int 0
  | len =>
    let v ← only "len" a
    match (← get).length? v with
    | some n => return .int n
    | none => complain ("len: value of type " ++ v.typeName ++ " has no len")
  | list => newList (← itemsOrNone "list" a)
  | ord => toOrd (← a.single "ord" "1")
  | print => printLine a
  | range => newRange a
  | repr => return .text ((← get).write (← only "repr" a))
  | reversed => newList (← itemsOf "reversed" a).reverse
  | set => setOf (← itemsOrNone "set" a)
  | str =>
    match ← a.single "str" "exactly 1" with
    | .text s => return .text s
    | .bytes s => return .text (utf8 (String.ofList (Utf8.replaceInvalid s)))
    | v => return .text ((← get).write v)
  | tuple => return .tuple (← itemsOrNone "tuple" a)
  | typeOf => return .text (utf8 (← a.single "type" "exactly 1").typeName)
  | zip => Work.zip a
  | max | min | sorted => complain (f.name ++ ": cannot be called here")

end TapeMachine.Script
