/-
The functions of lists, dictionaries and sets.

* `Value.callMember` applies a function of a value by its name.
-/
import TapeMachine.Script.TextMembers

namespace TapeMachine.Script

namespace ListMembers

/-- The place of the first item between two places that equals a value. -/
def indexOf? (v : Value) (first stop : Nat) (items : Array Value) : Work (Option Nat) :=
  let rec go : List (Value × Nat) → Work (Option Nat)
    | [] => return none
    | (item, i) :: rest => do
      if first ≤ i && i < stop && (← Work.equals item v) then return some i else go rest
  go items.toList.zipIdx

/-- Applies a function of the list at an address. -/
def call (address : Nat) (name : String) (a : Arguments) : Work Value := do
  let change (verb : String) (f : Array Value → Array Value) : Work Value := do
    let items ← Arguments.blaming (name ++ ": ") (Work.mutableList verb address)
    Work.put address (.list (f items) 0)
    return .none
  match name with
  | "append" =>
    let v ← Work.only name a
    change "append to" (·.push v)
  | "clear" =>
    let _ ← a.inOrder name 0 0
    change "clear" fun _ => #[]
  | "extend" =>
    let more ← Work.itemsOf name a
    change "extend" (· ++ more.toArray)
  | "index" =>
    let vs ← a.inOrder name 1 3
    let items := (← get).listItems address
    let found ← Arguments.blaming (name ++ ": ") do
      let (first, stop) ← Work.interval items.size ((vs[1]?).getD .none) ((vs[2]?).getD .none)
      indexOf? (vs.headD .none) first stop items
    match found with
    | some i => return .int i
    | none => complain (name ++ ": value not in list")
  | "insert" =>
    let vs ← a.inOrder name 2 2
    let i ← Arguments.nth name 1 Arguments.whole (vs.headD .none)
    let v := (vs[1]?).getD .none
    change "insert into" fun items =>
      let n : Int := items.size
      let i := if i < 0 then i + n else i
      let i := (max 0 (min i n)).toNat
      items.take i ++ #[v] ++ items.drop i
  | "pop" =>
    let vs ← a.inOrder name 0 1
    let n := ((← get).listItems address).size
    let i := (← Arguments.nth? name 1 Arguments.whole vs).getD (n - 1)
    match Work.place? n i with
    | none => complain (name ++ ": " ++ Work.outOfRange "list" n i)
    | some j =>
      let items ← Arguments.blaming (name ++ ": ") (Work.mutableList "pop from" address)
      Work.put address (.list (items.eraseIdxIfInBounds j) 0)
      return items.getD j .none
  | "remove" =>
    let v ← Work.only name a
    let items ← Arguments.blaming (name ++ ": ") (Work.mutableList "remove from" address)
    match ← Arguments.blaming (name ++ ": ") (indexOf? v 0 items.size items) with
    | some i =>
      Work.put address (.list (items.eraseIdxIfInBounds i) 0)
      return .none
    | none => complain (name ++ ": element not found")
  | _ => complain (Work.noMember (.list address) name)

end ListMembers

namespace DictMembers

/-- Applies a function of the dictionary at an address. -/
def call (address : Nat) (name : String) (a : Arguments) : Work Value := do
  let entries := (← get).dictEntries address
  match name with
  | "clear" =>
    let _ ← a.inOrder name 0 0
    let _ ← Arguments.blaming (name ++ ": ") (Work.mutableDict "clear" address)
    Work.put address (.dict [] 0)
    return .none
  | "get" =>
    let vs ← a.inOrder name 1 2
    match ← Arguments.blaming (name ++ ": ") (Work.getKey address (vs.headD .none)) with
    | some v => return v
    | none => return (vs[1]?).getD .none
  | "items" =>
    let _ ← a.inOrder name 0 0
    Work.newList (entries.map fun (k, v) => .tuple [k, v])
  | "keys" =>
    let _ ← a.inOrder name 0 0
    Work.newList (entries.map (·.1))
  | "values" =>
    let _ ← a.inOrder name 0 0
    Work.newList (entries.map (·.2))
  | "pop" =>
    let vs ← a.inOrder name 1 2
    match ← Arguments.blaming (name ++ ": ") (Work.deleteKey address (vs.headD .none)), vs[1]? with
    | some v, _ => return v
    | none, some fallback => return fallback
    | none, none => complain (name ++ ": missing key")
  | "popitem" =>
    let _ ← a.inOrder name 0 0
    match entries with
    | [] => complain (name ++ ": empty dict")
    | (key, value) :: _ =>
      let _ ← Arguments.blaming (name ++ ": ") (Work.deleteKey address key)
      return .tuple [key, value]
  | "setdefault" =>
    let vs ← a.inOrder name 1 2
    let key := vs.headD .none
    let fallback := (vs[1]?).getD .none
    Arguments.blaming (name ++ ": ") do
      match ← Work.getKey address key with
      | some v => return v
      | none =>
        Work.setKey address key fallback
        return fallback
  | "update" =>
    if 1 < a.positional.length then
      complain (name ++ ": got " ++ decimal a.positional.length ++ " arguments, want at most 1")
    Arguments.blaming (name ++ ": ") (Work.putAll address a)
    return .none
  | _ => complain (Work.noMember (.dict address) name)

end DictMembers

namespace SetMembers

/-- The different items of a sequence, all of which have to be keys. -/
def keysOf (items : List Value) : Work (List Value) := do
  items.forM Work.checkKey
  return items.foldl (fun kept v => if v.isKeyIn kept then kept else kept ++ [v]) []

/-- Applies a function of the set at an address. -/
def call (address : Nat) (name : String) (a : Arguments) : Work Value := do
  let items := (← get).setItems address
  let other : Work (List Value) := do
    let others ← Work.itemsOf name a
    Arguments.blaming (name ++ ": ") (keysOf others)
  let combine (op : BinaryOp) : Work Value := do
    Work.newSet ((Work.setOperation? op items (← other)).getD items)
  match name with
  | "add" =>
    let v ← Work.only name a
    Arguments.blaming (name ++ ": ") do
      Work.checkKey v
      if !v.isKeyIn items then Work.insert address v
    return .none
  | "clear" =>
    let _ ← a.inOrder name 0 0
    let _ ← Arguments.blaming (name ++ ": ") (Work.mutableSet "clear" address)
    Work.put address (.set [] 0)
    return .none
  | "discard" =>
    let v ← Work.only name a
    Arguments.blaming (name ++ ": ") do
      Work.checkKey v
      if v.isKeyIn items then discard (Work.remove address v)
    return .none
  | "remove" =>
    let v ← Work.only name a
    if ← Arguments.blaming (name ++ ": ") (Work.remove address v) then return .none
    else complain (name ++ ": missing key")
  | "pop" =>
    let _ ← a.inOrder name 0 0
    match items with
    | [] => complain (name ++ ": empty set")
    | v :: _ =>
      let _ ← Arguments.blaming (name ++ ": ") (Work.remove address v)
      return v
  | "difference" => combine .subtract
  | "intersection" => combine .bitAnd
  | "symmetric_difference" => combine .bitXor
  | "union" => combine .bitOr
  | "issubset" => return .bool (compareSets .atMost items (← other))
  | "issuperset" => return .bool (compareSets .atLeast items (← other))
  | _ => complain (Work.noMember (.set address) name)

end SetMembers

/-- Applies a function of a value by its name. -/
def Value.callMember (v : Value) (name : String) (a : Arguments) : Work Value :=
  match v with
  | .text s => TextMembers.call s name a
  | .bytes s => TextMembers.plain name a (.view .byteElems s)
  | .list address => ListMembers.call address name a
  | .dict address => DictMembers.call address name a
  | .set address => SetMembers.call address name a
  | v => complain (Work.noMember v name)

end TapeMachine.Script
