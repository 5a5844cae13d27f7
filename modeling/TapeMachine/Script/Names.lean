/-
What the names of a script stand for.

Before anything is carried out, every name has to stand for something, and statements and parameters have
to be in order. A function and a comprehension have names of their own; those of a function are all that
it gives a value to. A name that is given a value outside of functions may be given one only once.

* `Names.checkExpr` and `Names.checkChunk` find the first mistake.

Mistakes of form come before names that stand for nothing, and of these the ones in functions come before
the others.
-/
import TapeMachine.Script.Tree
import TapeMachine.Text.Quoted
import TapeMachine.Text.Spelling

namespace TapeMachine.Script.Names

/-- A part of a script with names of its own. -/
structure Block where
  number : Nat
  names : List String
deriving DecidableEq, Repr

/-- A name in the blocks around it, innermost first. -/
structure Use where
  name : String
  position : Position
  blocks : List Block
deriving Repr

/-- What was found out about a script. -/
structure Survey where
  /-- The mistakes, newest first. -/
  mistakes : List SyntaxError := []
  /-- The uses in functions that are done, newest first. -/
  settled : List Use := []
  /-- The uses in the function at hand, newest first. -/
  uses : List Use := []
  /-- The names with values outside of functions and the places where they got them. -/
  globals : List (String × Position) := []
  /-- The number of blocks so far. -/
  blocks : Nat := 0

/-- What is around a part of a script. -/
structure Place where
  file : String
  blocks : List Block := []
  inFunction : Bool := false
  inLoop : Bool := false
  inChoice : Bool := false

/-- An action on a survey. -/
abbrev Check := StateM Survey

/-- Notes a mistake. -/
def mistake (position : Position) (message : String) : Check Unit :=
  modify fun s => { s with mistakes := ⟨position, utf8 message⟩ :: s.mistakes }

/-- Notes the use of a name. -/
def use (place : Place) (name : String) (position : Position) : Check Unit :=
  modify fun s => { s with uses := ⟨name, position, place.blocks⟩ :: s.uses }

/-- A new block within a place. -/
def enter (place : Place) (names : List String) : Check Place := do
  let number := (← get).blocks
  modify fun s => { s with blocks := number + 1 }
  return { place with blocks := ⟨number, names⟩ :: place.blocks }

/-- Gives a value to a name. Outside of blocks that may happen only once. -/
def bind (place : Place) (name : String) (position : Position) : Check Unit := do
  if place.blocks.isEmpty then
    match (← get).globals.lookup name with
    | some first =>
      mistake position ("cannot reassign global " ++ name ++ " declared at " ++ first.text place.file)
    | none => modify fun s => { s with globals := s.globals ++ [(name, position)] }

/-- The order that arguments have to keep: what was seen before. -/
structure Seen where
  named : List String := []
  anyNamed : Bool := false
  sequence : Bool := false
  mapping : Bool := false

/-- Checks that an argument may follow those before it. -/
def orderArgument (seen : Seen) (kind : ArgumentKind) (e : Expr) : Check Seen :=
  match kind with
  | .mapping p => do
    if seen.mapping then mistake p "multiple **kwargs not allowed"
    return { seen with mapping := true }
  | .sequence p => do
    if seen.mapping then mistake p "*args may not follow **kwargs"
    else if seen.sequence then mistake p "multiple *args not allowed"
    return { seen with sequence := true }
  | .named p name => do
    if seen.mapping then mistake p "keyword argument may not follow **kwargs"
    else if seen.sequence then mistake p "keyword argument may not follow *args"
    if seen.named.contains name then
      mistake p ("keyword argument " ++ Quoted.quoteString (utf8 name) ++ " is repeated")
    return { seen with named := name :: seen.named, anyNamed := true }
  | .positional => do
    let p := e.start
    if seen.sequence then mistake p "positional argument may not follow *args"
    else if seen.mapping then mistake p "positional argument may not follow **kwargs"
    else if seen.anyNamed then mistake p "positional argument may not follow named"
    return seen

/-- The parameters that were met so far. -/
structure Met where
  names : List String := []
  optional : Bool := false
  /-- The parameter for all arguments that are left. -/
  sequence : Option Parameter := none
  /-- The parameter for all named arguments that are left. -/
  mapping : Option (String × Position) := none
  /-- The number of parameters that take named arguments only. -/
  namedOnly : Nat := 0

/-- Notes the name of a parameter. -/
def meetName (m : Met) (name : String) (position : Position) : Check Met := do
  if m.names.contains name then mistake position ("duplicate parameter: " ++ name)
  return { m with names := name :: m.names }

/-- Checks that a parameter may follow those before it. -/
def meet (m : Met) (p : Parameter) (hasDefault : Bool) : Check Met :=
  match p.kind, p.name with
  | .single, some (name, position) => do
    match m.mapping with
    | some (rest, _) =>
      mistake position
        ((if hasDefault then "optional" else "required") ++ " parameter may not follow **" ++ rest)
    | none =>
      if m.sequence.isNone && m.optional && !hasDefault then
        mistake position "required parameter may not follow optional"
    let m := if m.mapping.isNone && m.sequence.isSome then { m with namedOnly := m.namedOnly + 1 } else m
    let m ← meetName m name position
    return { m with optional := m.optional || hasDefault }
  | .mapping, some name => do
    if m.mapping.isSome then mistake p.position "multiple ** parameters not allowed"
    return { m with mapping := some name }
  | .sequence, _ => do
    match m.mapping, m.sequence with
    | some (rest, _), _ => do
      mistake p.position ("* parameter may not follow **" ++ rest)
      return m
    | none, some _ => do
      mistake p.position "multiple * parameters not allowed"
      return m
    | none, none => return { m with sequence := some p }
  | _, none => return m

/-- Checks the parameters of a function. -/
def meetAll (parameters : List (Parameter × Option Expr)) : Check Unit := do
  let m ← parameters.foldlM (fun m (p, value) => meet m p value.isSome) {}
  let m ← match m.sequence with
    | some { name := some (name, position), .. } => meetName m name position
    | some { position, .. } => do
      if m.namedOnly = 0 then mistake position "bare * must be followed by keyword-only parameters"
      pure m
    | none => pure m
  match m.mapping with
  | some (name, position) => let _ ← meetName m name position
  | none => pure ()

/-- The names of parameters. -/
def parameterNames (parameters : List (Parameter × Option Expr)) : List String :=
  parameters.filterMap fun (p, _) => p.name.map (·.1)

/-- Does something in a function, whose uses are then settled. -/
def within (body : Check Unit) : Check Unit := do
  let outer := (← get).uses
  modify fun s => { s with uses := [] }
  body
  modify fun s => { s with settled := s.uses ++ s.settled, uses := outer }

mutual

/-- Checks an expression. -/
def expr (place : Place) (fuel : Nat) (e : Expr) : Check Unit :=
  match fuel with
  | 0 => return ()
  | fuel + 1 =>
    match e with
    | .name p name => use place name p
    | .constant .. => return ()
    | .paren _ e => expr place fuel e
    | .tuple _ items => items.forM (expr place fuel)
    | .list _ items => items.forM (expr place fuel)
    | .dict _ entries => entries.forM fun (key, _, value) => do
      expr place fuel key
      expr place fuel value
    | .unary _ _ e => expr place fuel e
    | .binary _ _ a b => do
      expr place fuel a
      expr place fuel b
    | .conditional c a b => do
      expr place fuel c
      expr place fuel a
      expr place fuel b
    | .index _ e i => do
      expr place fuel e
      expr place fuel i
    | .slice _ e low high step => do
      expr place fuel e
      [low, high, step].forM fun part => part.forM (expr place fuel)
    | .member _ e _ => expr place fuel e
    | .call _ f arguments => do
      expr place fuel f
      let _ ← arguments.foldlM (fun seen (kind, e) => do
        let seen ← orderArgument seen kind e
        expr place fuel e
        return seen) {}
    | .lambda _ parameters body => do
      parameters.forM fun (_, value) => value.forM (expr place fuel)
      within do
        meetAll parameters
        let place ← enter place (parameterNames parameters)
        expr { place with inFunction := true } fuel body
    | .comprehension _ key body clauses => do
      match clauses with
      | (some (_, vars), items) :: rest =>
        expr place fuel items
        let place ← enter place ((Expr.clauseTargets clauses).map (·.1))
        assign place fuel false vars
        rest.forM fun (loop, e) => do
          loop.forM fun (_, vars) => assign place fuel false vars
          expr place fuel e
        key.forM fun (key, _) => expr place fuel key
        expr place fuel body
      | _ => return ()

/-- Checks an assignment to an expression. -/
def assign (place : Place) (fuel : Nat) (changes : Bool) (target : Expr) : Check Unit :=
  match fuel with
  | 0 => return ()
  | fuel + 1 =>
    match target with
    | .name p name => bind place name p
    | .paren _ e => assign place fuel changes e
    | .index _ e i => do
      expr place fuel e
      expr place fuel i
    | .member _ e _ => expr place fuel e
    | .tuple p items => do
      if changes then mistake p "can't use tuple expression in augmented assignment"
      items.forM (assign place fuel changes)
    | .list p items => do
      if changes then mistake p "can't use list expression in augmented assignment"
      items.forM (assign place fuel changes)
    | e => mistake e.start ("can't assign to " ++ e.kind)

end

/-- Checks a statement. -/
def stmt (place : Place) (fuel : Nat) (s : Stmt) : Check Unit :=
  match fuel with
  | 0 => return ()
  | fuel + 1 =>
    match s with
    | .expr e => expr place fuel e
    | .assign _ target value => do
      expr place fuel value
      assign place fuel false target
    | .update _ _ target value => do
      expr place fuel value
      assign place fuel true target
    | .jump p kind =>
      match kind, place.inLoop with
      | .leave, false => mistake p "break not in a loop"
      | .next, false => mistake p "continue not in a loop"
      | _, _ => return ()
    | .choose c yes no => do
      expr place fuel c
      let inner := { place with inChoice := true }
      yes.forM (stmt inner fuel)
      no.forM (stmt inner fuel)
    | .forEach _ vars items body => do
      expr place fuel items
      assign place fuel false vars
      body.forM (stmt { place with inLoop := true } fuel)
    | .repeatWhile c body => do
      expr place fuel c
      body.forM (stmt { place with inLoop := true } fuel)
    | .define _ name p parameters body => do
      bind place name p
      parameters.forM fun (_, value) => value.forM (expr place fuel)
      within do
        meetAll parameters
        let place ← enter place (parameterNames parameters ++ (Stmt.boundIn body).map (·.1))
        body.forM (stmt { place with inFunction := true, inLoop := false } fuel)
    | .giveBack p value => do
      if !place.inFunction then mistake p "return statement not within a function"
      value.forM (expr place fuel)
    | .load p _ names => do
      if place.inFunction then mistake p "load statement within a function"
      else if place.inLoop then mistake p "load statement within a loop"
      else if place.inChoice then mistake p "load statement within a conditional"
      names.forM fun (origin, originPlace, name, namePlace) => do
        if origin.isEmpty then mistake originPlace "load: empty identifier"
        else
          if origin.front = '_' then
            mistake originPlace
              ("load: names with leading underscores are not exported: " ++ origin)
          bind place name namePlace

/-! ### Names that stand for nothing -/

/-- What is known while names are looked up: the names that were found through each block, and the global
names that were met. -/
structure Known where
  through : List (Nat × String) := []
  globals : List String

/-- Whether a block has a name, or one was looked up through it before. -/
def Known.has (k : Known) (b : Block) (name : String) : Bool :=
  b.names.contains name || k.through.contains (b.number, name)

/-- The names that a misspelt name may stand for. -/
def Known.candidates (k : Known) (blocks : List Block) : List String :=
  let own := blocks.flatMap fun b =>
    b.names ++ (k.through.filter (·.1 = b.number)).map (·.2)
  (own ++ k.globals).mergeSort fun a b => decide (a ≤ b)

/-- Looks up a use: what is known after it, or the mistake. `isGlobal` and `isGiven` tell the names from
elsewhere; of these only the global ones are remembered. -/
def lookUp (isGlobal isGiven : String → Bool) (k : Known) (u : Use) : Except SyntaxError Known :=
  let passed := u.blocks.takeWhile fun b => !k.has b u.name
  let after := { k with through := passed.map (fun b => (b.number, u.name)) ++ k.through }
  if passed.length < u.blocks.length || k.globals.contains u.name then .ok after
  else if isGlobal u.name then .ok { after with globals := k.globals ++ [u.name] }
  else if isGiven u.name then .ok after
  else
    let hint := match Spelling.nearest u.name (k.candidates u.blocks) with
      | some name => " (did you mean " ++ name ++ "?)"
      | none => ""
    .error ⟨u.position, utf8 ("undefined: " ++ u.name ++ hint)⟩

/-- The first mistake of a survey. -/
def Survey.mistake? (s : Survey) (isGlobal isGiven : String → Bool) : Option SyntaxError :=
  match s.mistakes.getLast? with
  | some e => some e
  | none =>
    let uses := s.settled.reverse ++ s.uses.reverse
    match uses.foldlM (lookUp isGlobal isGiven) { globals := s.globals.map (·.1) } with
    | .ok _ => none
    | .error e => some e

/-- The first mistake of an expression over given names. -/
def checkExpr (fuel : Nat) (file : String) (isGiven : String → Bool) (e : Expr) : Option SyntaxError :=
  let ((), s) := expr { file } fuel e {}
  s.mistake? (fun _ => false) isGiven

/-- The first mistake of statements over global names from before and given names. -/
def checkChunk (fuel : Nat) (file : String) (isGlobal isGiven : String → Bool) (stmts : List Stmt) :
    Option SyntaxError :=
  let ((), s) := stmts.forM (stmt { file } fuel) {}
  s.mistake? isGlobal isGiven

end TapeMachine.Script.Names
