/-
Carrying out scripts.

A function runs in a scope of its own; a name is looked up in the scopes from the inside out, and last
among the names that every script has. A function must not run while it is running already.

* `Run` is a computation on the store that may fail;
* `Eval.expr` gives the value of an expression, `Eval.stmts` carries statements out;
* `Failure` tells where a script was when it failed.

The depth of evaluation, loops included, is bounded by a number that no script in use comes near.
-/
import TapeMachine.Script.Marks
import TapeMachine.Script.Members
import TapeMachine.Script.Names

namespace TapeMachine.Script

/-- Where a function is. -/
inductive Spot where
  | position (position : Position)
  /-- Nothing of the function has a place. -/
  | nowhere
  /-- The function is not written in a script. -/
  | builtin
deriving DecidableEq, Repr

/-- A function that is running, and where it is. -/
structure Frame where
  function : String
  spot : Spot
deriving DecidableEq, Repr

/-- Why a script did not come to its end. -/
inductive Failure where
  /-- An operation failed; the frames come outermost first. -/
  | failed (message : Bytes) (frames : List Frame)
  /-- The host cannot take a value of a type. -/
  | foreign (type : String)
deriving DecidableEq, Repr

/-- A computation on the store; what it did before it fails stays done. -/
abbrev Run := EStateM Failure Store

/-- What a part of a script runs in. -/
structure Context where
  /-- The function that runs. -/
  function : String
  /-- The functions that called it, innermost first. -/
  callers : List Frame := []
  /-- The functions of the script that are running. -/
  running : List (Nat × Position) := []
  /-- The scopes, innermost first. -/
  scopes : List Scope
  /-- The number of the chunk. -/
  chunk : Nat := 0

namespace Context

/-- The frames while the function is at a place, innermost first. -/
def frames (c : Context) (spot : Spot) : List Frame :=
  ⟨c.function, spot⟩ :: c.callers

/-- Does work under frames. -/
def workIn {α : Type} (frames : List Frame) (work : Work α) : Run α := fun s =>
  match work s with
  | .ok a s => .ok a s
  | .error e s => .error (.failed e frames.reverse) s

/-- Does work at a place. -/
def work {α : Type} (c : Context) (p : Position) (work : Work α) : Run α :=
  workIn (c.frames (.position p)) work

/-- Whether a name is not one of those that every script has. -/
def isOwn (c : Context) (name : String) : Bool :=
  c.scopes.any fun s => s.names.contains name

end Context

/-- The names that every script has. -/
def everywhere : List (String × Value) :=
  [("None", .none), ("True", .bool true), ("False", .bool false)] ++
    Builtin.every.map fun f => (f.name, .builtin f)

namespace Eval

/-- Does something while a loop goes over a value. -/
def reading {α : Type} (v : Value) (body : Run α) : Run α := fun s =>
  let count (change : Nat → Nat) (s : Store) : Store :=
    match Work.countReaders change v s with
    | .ok _ s => s
    | .error _ s => s
  match body (count (· + 1) s) with
  | .ok a s => .ok a (count (· - 1) s)
  | .error e s => .error e (count (· - 1) s)

/-- The value of a name. -/
def lookup (c : Context) (p : Position) (name : String) : Run Value := do
  match c.scopes.find? fun s => s.names.contains name with
  | some scope =>
    match ((← get).scopeValues scope.address).lookup name with
    | some v => return v
    | none =>
      let kind := if scope.isGlobal then "global" else "local"
      c.work p (complain (kind ++ " variable " ++ name ++ " referenced before assignment"))
  | none =>
    match everywhere.lookup name with
    | some v => return v
    | none => c.work p (complain ("undefined: " ++ name))

/-- Gives a name a value in the innermost scope. -/
def setName (c : Context) (name : String) (v : Value) : Run Unit :=
  match c.scopes with
  | [] => return ()
  | scope :: _ => modify fun s =>
    let values := (s.scopeValues scope.address).filter (·.1 ≠ name)
    { s with objects := s.objects.setIfInBounds scope.address (.scope ((name, v) :: values)) }

/-- A new scope with names, some of which have values. -/
def newScope (names : List String) (values : List (String × Value)) : Run Scope :=
  modifyGet fun s => (⟨s.objects.size, names, false⟩, { s with objects := s.objects.push (.scope values) })

/-- The value of a constant. -/
def constant : Constant → Value
  | .int n => .int n
  | .float bits => .float bits
  | .text s => .text s
  | .bytes s => .bytes s

/-- The operands of a sum from the left, each with the place of the sign before it. Neighbouring bytes that
are written out are one operand. -/
def summands (p : Position) : Expr → List (Position × Expr)
  | .paren _ e => summands p e
  | .binary q .add a b => add (summands p a) (q, b.unparen)
  | e => [(p, e)]
where
  /-- Adds an operand. -/
  add (before : List (Position × Expr)) (next : Position × Expr) : List (Position × Expr) :=
    match before.getLast?, next with
    | some (p, .constant q (.bytes s)), (_, .constant _ (.bytes t)) =>
      before.dropLast ++ [(p, .constant q (.bytes (s ++ t)))]
    | _, _ => before ++ [next]

/-! ### Arguments -/

/-- The parameters of a function by kind. -/
structure Signature where
  /-- Parameters that take arguments with or without names. -/
  ordinary : List (String × Option Value) := []
  /-- Parameters that take named arguments only. -/
  namedOnly : List (String × Option Value) := []
  sequence : Option String := none
  mapping : Option String := none
deriving Repr

/-- Sorts parameters by kind. -/
def signature (parameters : List (Parameter × Option Value)) : Signature :=
  let (sg, _) := parameters.foldl (fun (sg, starred) (p, value) =>
    match p.kind, p.name with
    | .single, some (name, _) =>
      if starred then ({ sg with namedOnly := sg.namedOnly ++ [(name, value)] }, starred)
      else ({ sg with ordinary := sg.ordinary ++ [(name, value)] }, starred)
    | .sequence, name => ({ sg with sequence := name.map (·.1) }, true)
    | .mapping, name => ({ sg with mapping := name.map (·.1) }, true)
    | .single, none => (sg, starred)) (({} : Signature), false)
  sg

/-- Takes named arguments for parameters: what the parameters got, and what is left. -/
def takeNamed (function : String) (sg : Signature) (taken : List (String × Value))
    (rest : List (Value × Value)) :
    List (Bytes × Value) → Except Bytes (List (String × Value) × List (Value × Value))
  | [] => .ok (taken, rest)
  | (name, v) :: more =>
    let twice : Bytes :=
      utf8 ("function " ++ function ++ " got multiple values for parameter ") ++ Quoted.quote name
    match (sg.ordinary ++ sg.namedOnly).find? fun (n, _) => utf8 n = name with
    | some (n, _) =>
      if (taken.lookup n).isSome then .error twice
      else takeNamed function sg ((n, v) :: taken) rest more
    | none =>
      if sg.mapping.isNone then
        .error (utf8 ("function " ++ function ++ " got an unexpected keyword argument ") ++ Quoted.quote name)
      else if (Value.lookup? (.text name) rest).isSome then .error twice
      else takeNamed function sg taken (rest ++ [(.text name, v)]) more

/-- The values of a function's parameters for arguments. -/
def bindArguments (function : String) (sg : Signature) (a : Arguments) :
    Work (List (String × Value)) := do
  let n := a.positional.length
  let counted := sg.ordinary.length
  if counted = 0 && sg.namedOnly.isEmpty && sg.sequence.isNone && sg.mapping.isNone then
    let given := n + a.named.length
    if given ≠ 0 then
      complain ("function " ++ function ++ " accepts no arguments (" ++ decimal given ++ " given)")
    return []
  if counted < n && sg.sequence.isNone then
    complain ("function " ++ function ++ " accepts " ++
      (if sg.ordinary.any (·.2.isSome) then "at most " else "") ++ decimal counted ++
      " positional argument" ++ (if counted = 1 then "" else "s") ++ " (" ++ decimal n ++ " given)")
  let first := (sg.ordinary.map (·.1)).zip a.positional
  let (taken, rest) ← Work.lift (takeNamed function sg first [] a.named)
  let open' := (sg.ordinary ++ sg.namedOnly).filter fun (name, _) => (taken.lookup name).isNone
  let missing := open'.filter fun (_, value) => value.isNone
  if !missing.isEmpty then
    complain ("function " ++ function ++ " missing " ++ decimal missing.length ++ " argument" ++
      (if 1 < missing.length then "s" else "") ++ " (" ++
      String.intercalate ", " (missing.map (·.1)) ++ ")")
  let defaults := open'.filterMap fun (name, value) => value.map fun v => (name, v)
  let sequence := sg.sequence.toList.map fun name => (name, Value.tuple (a.positional.drop counted))
  let mapping ← sg.mapping.toList.mapM fun name => do return (name, ← Work.newDict rest)
  return taken ++ defaults ++ sequence ++ mapping

/-- The message for a value that the host takes for a number and that is none. -/
def notWhole (kind : String) : String :=
  "unmarshaling kind: " ++ kind ++ " to int\nunmarshal error\npath: "

/-- The number that the host takes a value for. Nothing counts as zero. -/
def hostNumber (v : Value) : Except Failure (Except String Int) :=
  match v with
  | .none => .ok (.ok 0)
  | .int i =>
    .ok (if -(Nat.pow 2 63 : Int) ≤ i ∧ i < Nat.pow 2 63 then .ok i else .error "int too large")
  | .float _ => .ok (.error "not a float: int")
  | .tuple _ => .ok (.error "not a tuple: int")
  | .bool _ => .ok (.error (notWhole "KindBool"))
  | .text _ => .ok (.error (notWhole "KindString"))
  | .bytes _ => .ok (.error (notWhole "KindBytes"))
  | .list _ => .ok (.error (notWhole "KindArray"))
  | .dict _ => .ok (.error (notWhole "KindObject"))
  | .set _ => .error (.foreign "*starlark.Set")
  | .range .. => .error (.foreign "starlark.rangeValue")
  | .function _ => .error (.foreign "*starlark.Function")
  | .builtin _ | .method .. | .host _ => .error (.foreign "*starlark.Builtin")
  | .view .elems _ | .view .elemOrds _ => .error (.foreign "starlark.stringElems")
  | .view .codepoints _ | .view .codepointOrds _ => .error (.foreign "starlark.stringCodepoints")
  | .view .byteElems _ => .error (.foreign "starlark.bytesIterable")

/-- Calls a function of the host. It takes the first argument and no others. -/
def callHost (frames : List Frame) (number : Nat) (a : Arguments) : Run Value := do
  match a.positional with
  | [] => Context.workIn frames (complain "not enough argument")
  | v :: _ =>
    match hostNumber v with
    | .error failure => throw failure
    | .ok (.error message) => Context.workIn frames (complain message)
    | .ok (.ok i) =>
      match (← get).hosts[number]? with
      | some apply => return .int (apply i)
      | none => return .none

/-! ### Sorting -/

/-- Puts an item into sorted ones, which come last one first, behind those that it is not less than. The
message of the last comparison that failed is kept. -/
def insertSorted (less : Value → Value → Except Bytes Bool) (item : Value × Value) :
    List (Value × Value) → Option Bytes → List (Value × Value) × Option Bytes
  | [], e => ([item], e)
  | other :: rest, e =>
    match less item.1 other.1 with
    | .ok true =>
      let (rest, e) := insertSorted less item rest e
      (other :: rest, e)
    | .ok false => (item :: other :: rest, e)
    | .error message => (item :: other :: rest, some message)

/-- Sorts values by their keys; equal ones stay in order. -/
def sortByKey (less : Value → Value → Except Bytes Bool) (items : List (Value × Value)) :
    Except Bytes (List Value) :=
  let (sorted, e) := items.foldl (fun (sorted, e) item => insertSorted less item sorted e) ([], none)
  match e with
  | some message => .error message
  | none => .ok (sorted.reverse.map (·.2))

/-- The arguments of a function that sorts: the items, a function for keys, and whether to turn the order. -/
def sortArguments (a : Arguments) : Work (List Value × Option Value × Bool) := do
  let wanted : List Arguments.Wanted :=
    [⟨"iterable", false, fun v => discard (Arguments.items v)⟩,
      ⟨"key", true, fun v => discard (Arguments.callable v)⟩,
      ⟨"reverse", true, fun v => discard (Arguments.flag v)⟩]
  match ← a.byName "sorted" wanted with
  | [some v, key, reverse] =>
    let turned := match reverse with
      | some (.bool b) => b
      | _ => false
    return (← Arguments.items v, key, turned)
  | _ => return ([], none, false)

/-- The arguments of a function that looks for an extreme: the items and a function for keys. -/
def extremeArguments (name : String) (a : Arguments) : Work (List Value × Option Value) := do
  if a.positional.isEmpty then complain (name ++ " requires at least one positional argument")
  let wanted : List Arguments.Wanted := [⟨"key", true, fun v => discard (Arguments.callable v)⟩]
  let key ← Arguments.byName name wanted { named := a.named }
  let items ← match a.positional with
    | [v] =>
      match (← get).items? v with
      | some items => pure items
      | none => complain (name ++ ": " ++ v.typeName ++ " value is not iterable")
    | vs => pure vs
  if items.isEmpty then complain (name ++ ": argument is an empty sequence")
  return (items, (key.headD none))

/-! ### Evaluation -/

/-- How statements came to their end. -/
inductive Flow where
  | onward
  | leave
  | next
  | giveBack (value : Value)

/-- What a comprehension has gathered. -/
structure Gathered where
  items : Array Value := #[]
  entries : List (Value × Value) := []

/-- The message for a script that goes on for too long. -/
def tooLong : String :=
  "Starlark computation cancelled: too many steps"

/-- The items that a loop goes through. -/
def loopItems (v : Value) : Work (List Value) := do
  match (← get).items? v with
  | some items => return items
  | none => complain (v.typeName ++ " value is not iterable")

/-- The named arguments in a mapping. -/
def namedIn (v : Value) : Work (List (Bytes × Value)) := do
  match v with
  | .dict a =>
    ((← get).dictEntries a).mapM fun (key, value) =>
      match key with
      | .text name => pure (name, value)
      | key => complain ("keywords must be strings, not " ++ key.typeName)
  | v => complain ("argument after ** must be a mapping, not " ++ v.typeName)

/-- The arguments in a sequence. -/
def positionalIn (v : Value) : Work (List Value) := do
  match (← get).items? v with
  | some items => return items
  | none => complain ("argument after * must be iterable, not " ++ v.typeName)

/-- The items of a value that is assigned to `n` targets. -/
def unpack (n : Nat) (v : Value) : Work (List Value) := do
  let s ← get
  match s.items? v with
  | none => complain ("got " ++ v.typeName ++ " in sequence assignment")
  | some items =>
    if n < items.length then
      let size := match s.length? v with
        | some n => decimal n
        | none => "-1"
      complain ("too many values to unpack (got " ++ size ++ ", want " ++ decimal n ++ ")")
    if items.length < n then
      complain ("too few values to unpack (got " ++ decimal items.length ++ ", want " ++ decimal n ++ ")")
    return items

mutual

/-- The value of an expression. -/
def expr (fuel : Nat) (c : Context) (e : Expr) : Run Value :=
  match fuel with
  | 0 => c.work e.start (complain tooLong)
  | fuel + 1 => do
    match e with
    | .name p name => lookup c p name
    | .constant _ value => return constant value
    | .paren _ e => expr fuel c e
    | .tuple _ items => return .tuple (← exprs fuel c items)
    | .list p items =>
      let items ← exprs fuel c items
      c.work p (Work.newList items)
    | .dict p items =>
      let entries ← dictEntries fuel c items []
      c.work p (Work.newDict entries)
    | .unary p op e =>
      let v ← expr fuel c e
      c.work p (Work.unary op v)
    | .binary p op a b =>
      match op with
      | .or =>
        let v ← expr fuel c a
        if (← get).truth v then return v else expr fuel c b
      | .and =>
        let v ← expr fuel c a
        if (← get).truth v then expr fuel c b else return v
      | .add => sum fuel c (summands p e)
      | op =>
        let v ← expr fuel c a
        let w ← expr fuel c b
        c.work p (Work.binary op v w)
    | .conditional condition yes no =>
      let v ← expr fuel c condition
      if (← get).truth v then expr fuel c yes else expr fuel c no
    | .index p container place =>
      let v ← expr fuel c container
      let i ← expr fuel c place
      c.work p (Work.getItem v i)
    | .slice p container low high step =>
      let v ← expr fuel c container
      let i ← part fuel c low
      let j ← part fuel c high
      let k ← part fuel c step
      c.work (Expr.sliceMark c.isOwn p container [low, high, step]) (Work.getSlice v i j k)
    | .member p object name =>
      let v ← expr fuel c object
      c.work p (Work.getMember v name)
    | .call p f list =>
      let f ← expr fuel c f
      let a ← arguments fuel c p list
      call fuel (c.frames (.position p)) c.running f a
    | .lambda p parameters body =>
      makeFunction fuel c "lambda" p parameters [.giveBack p (some body)]
    | .comprehension p key body list =>
      match list with
      | (some (place, vars), items) :: rest =>
        let v ← expr fuel c items
        let items ← c.work place (loopItems v)
        let scope ← newScope ((Expr.clauseTargets list).map (·.1)) []
        let inner := { c with scopes := scope :: c.scopes }
        let g ← reading v (gatherEach fuel inner place vars rest key body items {})
        c.work p (if key.isSome then Work.newDict g.entries else Work.newList g.items.toList)
      | _ => return .none

/-- The sum of operands from the left. -/
def sum (fuel : Nat) (c : Context) (operands : List (Position × Expr)) : Run Value :=
  match fuel with
  | 0 => c.work {} (complain tooLong)
  | fuel + 1 => do
    match operands with
    | [] => return .none
    | (_, first) :: rest =>
      let v ← expr fuel c first
      rest.foldlM (fun v (p, e) => do
        let w ← expr fuel c e
        c.work p (Work.binary .add v w)) v

/-- The values of expressions. -/
def exprs (fuel : Nat) (c : Context) (es : List Expr) : Run (List Value) :=
  match fuel with
  | 0 => c.work {} (complain tooLong)
  | fuel + 1 => es.mapM (expr fuel c)

/-- The value of a part that may be left out. -/
def part (fuel : Nat) (c : Context) (e : Option Expr) : Run Value :=
  match fuel with
  | 0 => c.work {} (complain tooLong)
  | fuel + 1 =>
    match e with
    | none => return .none
    | some e => expr fuel c e

/-- The entries of a dictionary that is written out; a key comes once. -/
def dictEntries (fuel : Nat) (c : Context) (list : List (Expr × Position × Expr))
    (before : List (Value × Value)) : Run (List (Value × Value)) :=
  match fuel with
  | 0 => c.work {} (complain tooLong)
  | fuel + 1 => list.foldlM (fun entries (key, colon, value) => do
      let k ← expr fuel c key
      let v ← expr fuel c value
      c.work colon do
        Work.checkKey k
        if (k.lookup? entries).isSome then throw (utf8 "duplicate key: " ++ (← get).write k)
      return entries ++ [(k, v)]) before

/-- The arguments of a call: those that are written out in order, then those in a sequence and a mapping. -/
def arguments (fuel : Nat) (c : Context) (p : Position) (list : List (ArgumentKind × Expr)) :
    Run Arguments :=
  match fuel with
  | 0 => c.work p (complain tooLong)
  | fuel + 1 => do
    let written ← list.foldlM (fun (a : Arguments) (kind, e) => do
      match kind with
      | .positional => return { a with positional := a.positional ++ [← expr fuel c e] }
      | .named _ name => return { a with named := a.named ++ [(utf8 name, ← expr fuel c e)] }
      | _ => return a) {}
    let sequences ← list.filterMapM fun (kind, e) => do
      match kind with
      | .sequence _ => return some (← expr fuel c e)
      | _ => return none
    let mappings ← list.filterMapM fun (kind, e) => do
      match kind with
      | .mapping _ => return some (← expr fuel c e)
      | _ => return none
    let named ← mappings.mapM fun v => c.work p (namedIn v)
    let positional ← sequences.mapM fun v => c.work p (positionalIn v)
    return { positional := written.positional ++ positional.flatten, named := written.named ++ named.flatten }

/-- A function with the values that its parameters have if they get no argument. -/
def makeFunction (fuel : Nat) (c : Context) (name : String) (p : Position)
    (parameters : List (Parameter × Option Expr)) (body : List Stmt) : Run Value :=
  match fuel with
  | 0 => c.work p (complain tooLong)
  | fuel + 1 => do
    let parameters ← parameters.mapM fun (parameter, e) => do
      match e with
      | none => pure (parameter, none)
      | some e => pure (parameter, some (← expr fuel c e))
    let own := Names.parameterNames (parameters.map fun (p, _) => (p, none)) ++
      (Stmt.boundIn body).map (·.1)
    let entry := Stmt.firstMark (fun id => own.contains id || c.isOwn id) Expr.markDepth body
    let closure : Closure :=
      { name, code := (c.chunk, p), parameters, body, scopes := c.scopes, entry }
    return .function (← c.work p (Work.allocate (.closure closure)))

/-- Calls a value with arguments, below some frames. -/
def call (fuel : Nat) (frames : List Frame) (running : List (Nat × Position)) (f : Value) (a : Arguments) :
    Run Value :=
  match fuel with
  | 0 => Context.workIn frames (complain tooLong)
  | fuel + 1 => do
    match f with
    | .function address =>
      match (← get).closure? address with
      | none => return .none
      | some closure =>
        let start := match closure.entry with
          | some p => Spot.position p
          | none => .nowhere
        let inside := ⟨closure.name, start⟩ :: frames
        if running.contains closure.code then
          Context.workIn inside (complain ("function " ++ closure.name ++ " called recursively"))
        let values ← Context.workIn inside
          (bindArguments closure.name (signature closure.parameters) a)
        let names := Names.parameterNames (closure.parameters.map fun (p, _) => (p, none)) ++
          (Stmt.boundIn closure.body).map (·.1)
        let scope ← newScope names values
        let c : Context :=
          { function := closure.name, callers := frames, running := closure.code :: running,
            scopes := scope :: closure.scopes, chunk := closure.code.1 }
        match ← stmts fuel c closure.body with
        | .giveBack v => return v
        | _ => return .none
    | .builtin b =>
      let inside := ⟨b.name, .builtin⟩ :: frames
      match b with
      | .sorted =>
        let (items, key, turned) ← Context.workIn inside (sortArguments a)
        let keys ← keysOf fuel inside running key items
        let s ← get
        let less (x y : Value) : Except Bytes Bool :=
          if turned then s.compare .less y x else s.compare .less x y
        let sorted ← Context.workIn inside (Work.lift (sortByKey less (keys.zip items)))
        Context.workIn inside (Work.newList sorted)
      | .max | .min =>
        let (items, key) ← Context.workIn inside (extremeArguments b.name a)
        let keys ← keysOf fuel inside running key items
        let op := if b = .max then BinaryOp.greater else .less
        match keys.zip items with
        | [] => return .none
        | first :: rest =>
          let (_, v) ← rest.foldlM (fun (extreme : Value × Value) item => do
            let better ← Context.workIn inside
              (Arguments.blaming (b.name ++ ": ") (Work.compare op item.1 extreme.1))
            return if better then item else extreme) first
          return v
      | b => Context.workIn inside (b.apply a)
    | .method _ receiver name => Context.workIn (⟨name, .builtin⟩ :: frames) (receiver.callMember name a)
    | .host number => callHost (⟨"", .builtin⟩ :: frames) number a
    | v => Context.workIn frames (complain ("invalid call of non-function (" ++ v.typeName ++ ")"))

/-- The keys of items: what a function makes of them, or the items themselves. -/
def keysOf (fuel : Nat) (frames : List Frame) (running : List (Nat × Position)) (key : Option Value)
    (items : List Value) : Run (List Value) :=
  match fuel with
  | 0 => Context.workIn frames (complain tooLong)
  | fuel + 1 =>
    match key with
    | none => return items
    | some f => items.mapM fun v => call fuel frames running f { positional := [v] }

/-- Goes on with a comprehension: its clauses, then its body. -/
def gather (fuel : Nat) (c : Context) (list : List (Option (Position × Expr) × Expr))
    (key : Option (Expr × Position)) (body : Expr) (g : Gathered) : Run Gathered :=
  match fuel with
  | 0 => c.work body.start (complain tooLong)
  | fuel + 1 => do
    match list with
    | [] =>
      match key with
      | none => return { g with items := g.items.push (← expr fuel c body) }
      | some (key, colon) =>
        let k ← expr fuel c key
        let v ← expr fuel c body
        c.work colon (Work.checkKey k)
        return { g with entries := Value.store k v g.entries }
    | (none, condition) :: rest =>
      let v ← expr fuel c condition
      if (← get).truth v then gather fuel c rest key body g else return g
    | (some (place, vars), items) :: rest =>
      let v ← expr fuel c items
      let items ← c.work place (loopItems v)
      reading v (gatherEach fuel c place vars rest key body items g)

/-- Goes on with a comprehension for every item of a loop. -/
def gatherEach (fuel : Nat) (c : Context) (place : Position) (vars : Expr)
    (list : List (Option (Position × Expr) × Expr)) (key : Option (Expr × Position)) (body : Expr)
    (items : List Value) (g : Gathered) : Run Gathered :=
  match fuel with
  | 0 => c.work place (complain tooLong)
  | fuel + 1 => items.foldlM (fun g item => do
      assign fuel c place vars item
      gather fuel c list key body g) g

/-- Assigns a value to a target. -/
def assign (fuel : Nat) (c : Context) (p : Position) (target : Expr) (v : Value) : Run Unit :=
  match fuel with
  | 0 => c.work p (complain tooLong)
  | fuel + 1 => do
    match target with
    | .name _ name => setName c name v
    | .paren _ e => assign fuel c p e v
    | .tuple _ targets | .list _ targets =>
      let items ← c.work p (unpack targets.length v)
      (targets.zip items).forM fun (target, item) => assign fuel c p target item
    | .index q container place =>
      let container ← expr fuel c container
      let place ← expr fuel c place
      c.work q (Work.setItem container place v)
    | .member q object name =>
      let object ← expr fuel c object
      c.work q (complain ("can't assign to ." ++ name ++ " field of " ++ object.typeName))
    | e => c.work e.start (complain ("can't assign to " ++ e.kind))

/-- Changes the value of a target by an operator. -/
def update (fuel : Nat) (c : Context) (p : Position) (op : BinaryOp) (target value : Expr) : Run Unit :=
  match fuel with
  | 0 => c.work p (complain tooLong)
  | fuel + 1 => do
    match target with
    | .paren _ e => update fuel c p op e value
    | .name q name =>
      let v ← lookup c q name
      let w ← expr fuel c value
      setName c name (← c.work p (Work.update op v w))
    | .index q container place =>
      let container ← expr fuel c container
      let place ← expr fuel c place
      let v ← c.work q (Work.getItem container place)
      let w ← expr fuel c value
      let v ← c.work p (Work.update op v w)
      c.work q (Work.setItem container place v)
    | .member q object name =>
      let object ← expr fuel c object
      let v ← c.work q (Work.getMember object name)
      let w ← expr fuel c value
      let _ ← c.work p (Work.update op v w)
      c.work q (complain ("can't assign to ." ++ name ++ " field of " ++ object.typeName))
    | e => c.work e.start (complain ("can't assign to " ++ e.kind))

/-- Carries statements out, up to the first that leaves them. -/
def stmts (fuel : Nat) (c : Context) (list : List Stmt) : Run Flow :=
  match fuel with
  | 0 => c.work {} (complain tooLong)
  | fuel + 1 => do
    match list with
    | [] => return .onward
    | s :: rest =>
      match ← stmt fuel c s with
      | .onward => stmts fuel c rest
      | flow => return flow

/-- Carries a statement out. -/
def stmt (fuel : Nat) (c : Context) (s : Stmt) : Run Flow :=
  match fuel with
  | 0 => c.work {} (complain tooLong)
  | fuel + 1 => do
    match s with
    | .expr e =>
      let _ ← expr fuel c e
      return .onward
    | .assign p target value =>
      let v ← expr fuel c value
      assign fuel c p target v
      return .onward
    | .update p op target value =>
      update fuel c p op target value
      return .onward
    | .jump _ kind =>
      match kind with
      | .pass => return .onward
      | .leave => return .leave
      | .next => return .next
    | .choose condition yes no =>
      let v ← expr fuel c condition
      if (← get).truth v then stmts fuel c yes else stmts fuel c no
    | .forEach p vars items body =>
      let v ← expr fuel c items
      let items ← c.work p (loopItems v)
      reading v (forEach fuel c p vars body items)
    | .repeatWhile condition body => repeatWhile fuel c condition body
    | .define p name _ parameters body =>
      setName c name (← makeFunction fuel c name p parameters body)
      return .onward
    | .giveBack _ value => return .giveBack (← part fuel c value)
    | .load p _ _ => c.work p (complain "load not implemented by this application")

/-- Carries statements out for every item. -/
def forEach (fuel : Nat) (c : Context) (p : Position) (vars : Expr) (body : List Stmt)
    (items : List Value) : Run Flow :=
  match fuel with
  | 0 => c.work p (complain tooLong)
  | fuel + 1 => do
    match items with
    | [] => return .onward
    | item :: rest =>
      assign fuel c p vars item
      match ← stmts fuel c body with
      | .leave => return .onward
      | .giveBack v => return .giveBack v
      | _ => forEach fuel c p vars body rest

/-- Carries statements out as long as a condition holds. -/
def repeatWhile (fuel : Nat) (c : Context) (condition : Expr) (body : List Stmt) : Run Flow :=
  match fuel with
  | 0 => c.work condition.start (complain tooLong)
  | fuel + 1 => do
    let v ← expr fuel c condition
    if (← get).truth v then
      match ← stmts fuel c body with
      | .leave => return .onward
      | .giveBack v => return .giveBack v
      | _ => repeatWhile fuel c condition body
    else return .onward

end

end Eval

end TapeMachine.Script
