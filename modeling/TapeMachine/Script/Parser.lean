/-
Reading expressions and statements.

One token is looked at ahead. A message about a token that is out of place gives the place behind it,
one about a missing operand the place where the token starts.

* `Parser.expression` reads a text that is one expression;
* `Parser.chunk` reads a statement, or several on one line, from lines that are typed in.

The recursion is bounded by a number that grows with the length of the text, since every step into an
operand or an item passes over a token or goes to a tighter operator.
-/
import TapeMachine.Script.Source
import TapeMachine.Script.Tree

namespace TapeMachine.Script

/-- A source and the token that is looked at. -/
structure Parser where
  source : Source
  token : Token := default

/-- An action on a parser; what was read stays read if it fails. -/
abbrev Parse := EStateM Trouble Parser

namespace Parser

/-- Passes over the token at hand and gives its place. -/
def advance : Parse Position := fun p =>
  match Source.token p.source with
  | .ok token source => .ok p.token.start { p with source, token }
  | .error e source => .error e { p with source }

/-- The token at hand. -/
def current : Parse Symbol := do
  return (← get).token.symbol

/-- Whether the token at hand is a sign. -/
def atSign (sign : String) : Parse Bool := do
  return (← current) = .sign sign

/-- Whether the token at hand is a word with a meaning. -/
def atWord (word : String) : Parse Bool := do
  return (← current) = .keyword word

/-- Fails at a place. -/
def failAt {α : Type} (position : Position) (message : String) : Parse α :=
  throw (.malformed ⟨position, utf8 message⟩)

/-- Fails behind the token at hand. -/
def fail {α : Type} (message : String) : Parse α := do
  failAt (← get).source.position message

/-- Passes over a token that has to be there, and gives its place. -/
def expect (symbol : Symbol) : Parse Position := do
  let found ← current
  if found = symbol then advance
  else fail ("got " ++ found.describe ++ ", want " ++ symbol.describe)

/-- A name and its place. -/
def identifier : Parse (String × Position) := do
  match ← current with
  | .name id => return (id, ← advance)
  | _ => fail "not an identifier"

/-- Whether a list of expressions ends before a token. -/
def endsList : Symbol → Bool
  | .done | .newline => true
  | .sign s => ["=", "\x7d", "]", ")", ";"].contains s
  | _ => false

/-- The operator between two operands that a token is. -/
def binaryOp? : Symbol → Option BinaryOp
  | .keyword word => BinaryOp.all.find? fun op => op.spelling = word
  | .sign s => BinaryOp.all.find? fun op => op.spelling = s
  | _ => none

/-- The operator before an operand that a token is. -/
def unaryOp? : Symbol → Option UnaryOp
  | .sign "-" => some .negative
  | .sign "+" => some .positive
  | .sign "~" => some .complement
  | _ => none

/-- The constant that a token is. -/
def constant? : Symbol → Option Constant
  | .int n => some (.int n)
  | .float bits => some (.float bits)
  | .text s => some (.text s)
  | .bytes s => some (.bytes s)
  | _ => none

/-- Joins the words `not` and `in` to one operator, whose place is that of the second. -/
def joinNotIn : Parse Unit := do
  if ← atWord "not" then
    let _ ← advance
    let found ← current
    if found ≠ .keyword "in" then fail ("got " ++ found.describe ++ ", want in")
    modify fun p => { p with token := { p.token with symbol := .keyword "not in" } }

mutual

/-- One expression, or several with commas between them. -/
def expr (fuel : Nat) (inBrackets : Bool) : Parse Expr :=
  match fuel with
  | 0 => fail "expression is too deep"
  | fuel + 1 => do
    let first ← test fuel
    if ← atSign "," then
      let rest ← moreTests fuel inBrackets
      return .tuple first.start (first :: rest)
    else return first

/-- The expressions behind commas. -/
def moreTests (fuel : Nat) (trailing : Bool) : Parse (List Expr) :=
  match fuel with
  | 0 => fail "expression is too deep"
  | fuel + 1 => do
    if ← atSign "," then
      let comma ← advance
      if endsList (← current) then
        if trailing then return [] else failAt comma "unparenthesized tuple with trailing comma"
      else
        let e ← test fuel
        return e :: (← moreTests fuel trailing)
    else return []

/-- A single expression. -/
def test (fuel : Nat) : Parse Expr :=
  match fuel with
  | 0 => fail "expression is too deep"
  | fuel + 1 => do
    if ← atWord "lambda" then lambda fuel true
    else
      let yes ← operation fuel 0
      if ← atWord "if" then
        let place ← advance
        let condition ← operation fuel 0
        if !(← atWord "else") then failAt place "conditional expression without else clause"
        let _ ← advance
        return .conditional condition yes (← test fuel)
      else return yes

/-- A function without a name. Its body takes up a condition only if that is allowed. -/
def lambda (fuel : Nat) (conditional : Bool) : Parse Expr :=
  match fuel with
  | 0 => fail "expression is too deep"
  | fuel + 1 => do
    let place ← advance
    let parameters ← if ← atSign ":" then pure [] else parameters fuel true
    let _ ← expect (.sign ":")
    let body ← if conditional then test fuel
      else if ← atWord "lambda" then lambda fuel false
      else operation fuel 0
    return .lambda place parameters body

/-- An operation with operators that bind at least as tightly as a level. -/
def operation (fuel level : Nat) : Parse Expr :=
  match fuel with
  | 0 => fail "expression is too deep"
  | fuel + 1 => do
    if 9 < level then operand fuel
    else if level = 2 && (← atWord "not") then
      let place ← advance
      return .unary place .not (← operation fuel level)
    else
      let left ← operation fuel (level + 1)
      operations fuel level true left

/-- What operators of a level add to an operand. Comparisons do not follow each other. -/
def operations (fuel level : Nat) (first : Bool) (left : Expr) : Parse Expr :=
  match fuel with
  | 0 => fail "expression is too deep"
  | fuel + 1 => do
    joinNotIn
    match binaryOp? (← current) with
    | none => return left
    | some op =>
      if op.level < level then return left
      if !first && op.level = BinaryOp.equal.level then
        match left with
        | .binary _ other _ _ =>
          fail (other.spelling ++ " does not associate with " ++ op.spelling ++ " (use parens)")
        | _ => pure ()
      let place ← advance
      let right ← operation fuel (op.level + 1)
      operations fuel level false (.binary place op left right)

/-- A primary expression with its suffixes. -/
def operand (fuel : Nat) : Parse Expr :=
  match fuel with
  | 0 => fail "expression is too deep"
  | fuel + 1 => do suffixes fuel (← primary fuel)

/-- What members, places and arguments add to an expression. -/
def suffixes (fuel : Nat) (e : Expr) : Parse Expr :=
  match fuel with
  | 0 => fail "expression is too deep"
  | fuel + 1 => do
    if ← atSign "." then
      let place ← advance
      let (name, _) ← identifier
      suffixes fuel (.member place e name)
    else if ← atSign "[" then suffixes fuel (← indexOrSlice fuel e)
    else if ← atSign "(" then
      let place ← advance
      let arguments ← arguments fuel true
      let _ ← expect (.sign ")")
      suffixes fuel (.call place e arguments)
    else return e

/-- An item or a slice of an expression. -/
def indexOrSlice (fuel : Nat) (e : Expr) : Parse Expr :=
  match fuel with
  | 0 => fail "expression is too deep"
  | fuel + 1 => do
    let place ← advance
    let low ← if ← atSign ":" then pure none else some <$> expr fuel false
    match low, ← atSign "]" with
    | some item, true =>
      let _ ← advance
      return .index place e item
    | _, _ =>
      let high ← sliceEnd fuel [":", "]"]
      let step ← sliceEnd fuel ["]"]
      let _ ← expect (.sign "]")
      return .slice place e low high step

/-- The expression behind a colon, if there is one before the next of some signs. -/
def sliceEnd (fuel : Nat) (stops : List String) : Parse (Option Expr) :=
  match fuel with
  | 0 => fail "expression is too deep"
  | fuel + 1 => do
    if !(← atSign ":") then return none
    let _ ← advance
    match ← current with
    | .sign s => if stops.contains s then return none else some <$> test fuel
    | _ => some <$> test fuel

/-- The arguments of a call. -/
def arguments (fuel : Nat) (first : Bool) : Parse (List (ArgumentKind × Expr)) :=
  match fuel with
  | 0 => fail "expression is too deep"
  | fuel + 1 => do
    if (← atSign ")") || (← current) = .done then return []
    if !first then let _ ← expect (.sign ",")
    if ← atSign ")" then return []
    let argument ← argument fuel
    return argument :: (← arguments fuel false)

/-- One argument of a call. -/
def argument (fuel : Nat) : Parse (ArgumentKind × Expr) :=
  match fuel with
  | 0 => fail "expression is too deep"
  | fuel + 1 => do
    if ← atSign "*" then
      let place ← advance
      return (.sequence place, ← test fuel)
    else if ← atSign "**" then
      let place ← advance
      return (.mapping place, ← test fuel)
    else
      let e ← test fuel
      if !(← atSign "=") then return (.positional, e)
      match e with
      | .name p id =>
        let _ ← advance
        return (.named p id, ← test fuel)
      | _ => fail "keyword argument must have form name=expr"

/-- The parameters of a function. -/
def parameters (fuel : Nat) (first : Bool) : Parse (List (Parameter × Option Expr)) :=
  match fuel with
  | 0 => fail "expression is too deep"
  | fuel + 1 => do
    if (← atSign ")") || (← atSign ":") || (← current) = .done then return []
    if !first then let _ ← expect (.sign ",")
    if ← atSign ")" then return []
    let parameter ← parameter fuel
    return parameter :: (← parameters fuel false)

/-- One parameter of a function. -/
def parameter (fuel : Nat) : Parse (Parameter × Option Expr) :=
  match fuel with
  | 0 => fail "expression is too deep"
  | fuel + 1 => do
    if ← atSign "*" then
      let position ← advance
      let name ← match ← current with
        | .name _ => some <$> identifier
        | _ => pure none
      return ({ kind := .sequence, position, name }, none)
    else if ← atSign "**" then
      let position ← advance
      return ({ kind := .mapping, position, name := some (← identifier) }, none)
    else
      let (id, position) ← identifier
      let p : Parameter := { kind := .single, position, name := some (id, position) }
      if ← atSign "=" then
        let _ ← advance
        return (p, some (← test fuel))
      else return (p, none)

/-- An expression without operators around it. -/
def primary (fuel : Nat) : Parse Expr :=
  match fuel with
  | 0 => fail "expression is too deep"
  | fuel + 1 => do
    let symbol ← current
    match symbol, constant? symbol, unaryOp? symbol with
    | .name id, _, _ => return .name (← advance) id
    | _, some value, _ => return .constant (← advance) value
    | _, _, some op =>
      let place ← advance
      return .unary place op (← operand fuel)
    | .sign "[", _, _ => listDisplay fuel
    | .sign "\x7b", _, _ => dictDisplay fuel
    | .sign "(", _, _ =>
      let place ← advance
      if ← atSign ")" then
        let _ ← advance
        return .tuple place []
      let body ← expr fuel true
      let _ ← expect (.sign ")")
      return .paren place body
    | _, _, _ =>
      failAt (← get).token.start ("got " ++ symbol.describe ++ ", want primary expression")

/-- A list that is written out or made by loops. -/
def listDisplay (fuel : Nat) : Parse Expr :=
  match fuel with
  | 0 => fail "expression is too deep"
  | fuel + 1 => do
    let place ← advance
    if ← atSign "]" then
      let _ ← advance
      return .list place []
    let first ← test fuel
    if ← atWord "for" then
      return .comprehension place none first (← clauses fuel "]")
    let rest ← moreTests fuel true
    let _ ← expect (.sign "]")
    return .list place (first :: rest)

/-- A dictionary that is written out or made by loops. -/
def dictDisplay (fuel : Nat) : Parse Expr :=
  match fuel with
  | 0 => fail "expression is too deep"
  | fuel + 1 => do
    let place ← advance
    if ← atSign "\x7d" then
      let _ ← advance
      return .dict place []
    let (key, colon, value) ← entry fuel
    if ← atWord "for" then
      return .comprehension place (some (key, colon)) value (← clauses fuel "\x7d")
    let rest ← moreEntries fuel
    let _ ← expect (.sign "\x7d")
    return .dict place ((key, colon, value) :: rest)

/-- A key and a value. -/
def entry (fuel : Nat) : Parse (Expr × Position × Expr) :=
  match fuel with
  | 0 => fail "expression is too deep"
  | fuel + 1 => do
    let key ← test fuel
    let colon ← expect (.sign ":")
    return (key, colon, ← test fuel)

/-- The entries behind commas. -/
def moreEntries (fuel : Nat) : Parse (List (Expr × Position × Expr)) :=
  match fuel with
  | 0 => fail "expression is too deep"
  | fuel + 1 => do
    if !(← atSign ",") then return []
    let _ ← advance
    if ← atSign "\x7d" then return []
    let e ← entry fuel
    return e :: (← moreEntries fuel)

/-- The loops and conditions of a comprehension up to its closing bracket. -/
def clauses (fuel : Nat) (closing : String) : Parse (List (Option (Position × Expr) × Expr)) :=
  match fuel with
  | 0 => fail "expression is too deep"
  | fuel + 1 => do
    if ← atSign closing then
      let _ ← advance
      return []
    else if ← atWord "for" then
      let place ← advance
      let vars ← loopVars fuel
      let _ ← expect (.keyword "in")
      let items ← operation fuel 0
      return (some (place, vars), items) :: (← clauses fuel closing)
    else if ← atWord "if" then
      let _ ← advance
      let condition ← if ← atWord "lambda" then lambda fuel false else operation fuel 0
      return (none, condition) :: (← clauses fuel closing)
    else
      let found ← current
      fail ("got " ++ found.describe ++ ", want '" ++ closing ++ "', for, or if")

/-- The targets of a loop. -/
def loopVars (fuel : Nat) : Parse Expr :=
  match fuel with
  | 0 => fail "expression is too deep"
  | fuel + 1 => do
    let first ← operand fuel
    if ← atSign "," then
      let rest ← moreVars fuel
      return .tuple first.start (first :: rest)
    else return first

/-- The targets behind commas. -/
def moreVars (fuel : Nat) : Parse (List Expr) :=
  match fuel with
  | 0 => fail "expression is too deep"
  | fuel + 1 => do
    if !(← atSign ",") then return []
    let _ ← advance
    if endsList (← current) then return []
    let e ← operand fuel
    return e :: (← moreVars fuel)

end

/-! ### Statements -/

/-- The text of a literal, which has to be there. -/
def text (message : String) : Parse (Bytes × Position) := do
  match ← current with
  | .text s => return (s, ← advance)
  | _ => fail message

/-- A byte string as a name. -/
def nameOf (s : Bytes) : String :=
  String.ofList (Utf8.replaceInvalid s)

/-- The names that a load statement takes over. -/
def loadNames : Nat → Parse (List (String × Position × String × Position))
  | 0 => fail "statement is too long"
  | fuel + 1 => do
    let found ← current
    if found = .sign ")" || found = .done then return []
    let _ ← expect (.sign ",")
    match ← current with
    | .sign ")" => return []
    | .text s =>
      let place := (← advance).right 1
      let name := nameOf s
      return (name, place, name, place) :: (← loadNames fuel)
    | .name _ =>
      let (id, place) ← identifier
      if !(← atSign "=") then
        fail ("load operand must be \"" ++ id ++ "\" or " ++ id ++ "=\"originalname\" (want '=' after " ++
          id ++ ")")
      let _ ← advance
      let (s, origin) ← text ("original name of loaded symbol must be quoted: " ++ id ++ "=\"originalname\"")
      return (nameOf s, origin.right 1, id, place) :: (← loadNames fuel)
    | symbol =>
      fail ("load operand must be \"name\" or localname=\"name\" (got " ++ symbol.describe ++ ")")

/-- A statement that stands on one line. -/
def small (fuel : Nat) : Parse Stmt := do
  match ← current with
  | .keyword "return" =>
    let place ← advance
    match ← current with
    | .done | .newline | .sign ";" => return .giveBack place none
    | _ => return .giveBack place (some (← expr fuel false))
  | .keyword "break" => return .jump (← advance) .leave
  | .keyword "continue" => return .jump (← advance) .next
  | .keyword "pass" => return .jump (← advance) .pass
  | .keyword "load" =>
    let place ← advance
    let bracket ← expect (.sign "(")
    let (script, _) ← text "first operand of load statement must be a string literal"
    let names ← loadNames fuel
    let _ ← expect (.sign ")")
    if names.isEmpty then failAt bracket "load statement must import at least 1 symbol"
    return .load place script names
  | _ =>
    let target ← expr fuel false
    match ← current with
    | .sign s =>
      if s = "=" then
        let place ← advance
        return .assign place target (← expr fuel false)
      else match BinaryOp.ofUpdate? s with
        | some op =>
          let place ← advance
          return .update place op target (← expr fuel false)
        | none => return .expr target
    | _ => return .expr target

/-- Statements on one line. -/
def line : Nat → Parse (List Stmt)
  | 0 => fail "statement is too long"
  | fuel + 1 => do
    let s ← small fuel
    if !(← atSign ";") then return [s]
    let _ ← advance
    match ← current with
    | .newline | .done => return [s]
    | _ => return s :: (← line fuel)

/-- Statements on one line with its end. -/
def wholeLine (fuel : Nat) : Parse (List Stmt) := do
  let stmts ← line fuel
  if (← current) ≠ .done then let _ ← expect .newline
  return stmts

mutual

/-- A statement, or several on one line. -/
def statement (fuel : Nat) : Parse (List Stmt) :=
  match fuel with
  | 0 => fail "statement is too deep"
  | fuel + 1 => do
    match ← current with
    | .keyword "def" =>
      let place ← advance
      let (name, namePlace) ← identifier
      let _ ← expect (.sign "(")
      let parameters ← parameters fuel true
      let _ ← expect (.sign ")")
      let _ ← expect (.sign ":")
      return [.define place name namePlace parameters (← suite fuel)]
    | .keyword "if" => return [← choice fuel]
    | .keyword "for" =>
      let place ← advance
      let vars ← loopVars fuel
      let _ ← expect (.keyword "in")
      let items ← expr fuel false
      let _ ← expect (.sign ":")
      return [.forEach place vars items (← suite fuel)]
    | .keyword "while" =>
      let _ ← advance
      let condition ← test fuel
      let _ ← expect (.sign ":")
      return [.repeatWhile condition (← suite fuel)]
    | _ => wholeLine fuel

/-- A choice from its first word on. -/
def choice (fuel : Nat) : Parse Stmt :=
  match fuel with
  | 0 => fail "statement is too deep"
  | fuel + 1 => do
    let _ ← advance
    let condition ← test fuel
    let _ ← expect (.sign ":")
    let yes ← suite fuel
    if ← atWord "elif" then return .choose condition yes [← choice fuel]
    else if ← atWord "else" then
      let _ ← advance
      let _ ← expect (.sign ":")
      return .choose condition yes (← suite fuel)
    else return .choose condition yes []

/-- The statements below a head: on its line, or deeper on lines of their own. -/
def suite (fuel : Nat) : Parse (List Stmt) :=
  match fuel with
  | 0 => fail "statement is too deep"
  | fuel + 1 => do
    if (← current) = .newline then
      let _ ← advance
      let _ ← expect .indent
      let stmts ← statements fuel
      let _ ← expect .outdent
      return stmts
    else wholeLine fuel

/-- Statements up to the end of their block. -/
def statements (fuel : Nat) : Parse (List Stmt) :=
  match fuel with
  | 0 => fail "statement is too deep"
  | fuel + 1 => do
    match ← current with
    | .outdent | .done => return []
    | _ =>
      let first ← statement fuel
      return first ++ (← statements fuel)

end

/-! ### Scripts -/

/-- A bound of the recursion for a source. -/
def bound (s : Source) : Nat :=
  20 * (s.size + 20)

/-- Reads a text that is one expression. -/
def expression (text : List Char) : Except SyntaxError Expr :=
  let source := Source.ofText text
  let read : Parse Expr := do
    let _ ← advance
    let e ← expr (bound source) false
    if (← current) = .newline then let _ ← advance
    let found ← current
    if found ≠ .done then fail ("got " ++ found.describe ++ " after expression, want EOF")
    return e
  match read { source } with
  | .ok e _ => .ok e
  | .error (.malformed e) _ => .error e
  | .error .exhausted p => .error ⟨p.source.position, utf8 "EOF"⟩

/-- Reads a statement with all that belongs to it, or several on one line. An empty line gives none. -/
def chunkFrom (fuel : Nat) : Parse (List Stmt) := do
  let _ ← advance
  match ← current with
  | .keyword "def" | .keyword "if" | .keyword "for" | .keyword "while" => statement fuel
  | .newline => return []
  | _ =>
    let stmts ← line fuel
    if (← current) ≠ .newline then fail "invalid syntax"
    return stmts

/-- Reads a chunk from lines that are typed in: the chunk, and the lines behind those that it took. -/
def chunk (lines : List (List Char)) : Except Trouble (List Stmt) × List (List Char) :=
  let source := Source.ofLines lines
  match chunkFrom (bound source) { source } with
  | .ok stmts p => (.ok stmts, p.source.pending)
  | .error e p => (.error e, p.source.pending)

end Parser

end TapeMachine.Script
