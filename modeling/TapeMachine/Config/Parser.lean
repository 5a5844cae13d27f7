/-
Reading settings files and schemas.

`a: b: 1` is short for `a: {b: 1}`. The items of a list need commas that are written; between fields a line
break does.

* `Term.parse?` reads a whole file;
* `Term.parseOne?` reads a text that is one term.

The recursion is bounded by a number that grows with the number of tokens, since every step into a term
passes over a token or goes to a tighter operator.
-/
import TapeMachine.Config.Term
import TapeMachine.Config.Token

namespace TapeMachine.Config

/-- A reader of tokens. -/
abbrev Reader (α : Type) := StateT (List Token) Option α

namespace Reader

/-- The next token. -/
def peek : Reader (Option Token) := do
  return (← get).head?

/-- Passes over a token. -/
def skip : Reader Unit :=
  modify (·.drop 1)

/-- Whether a sign comes next. -/
def atSign (s : String) : Reader Bool := do
  match ← peek with
  | some (.sign t) => return s = t
  | _ => return false

/-- Whether a word comes next. -/
def atWord (s : String) : Reader Bool := do
  match ← peek with
  | some (.word t) => return s = t
  | _ => return false

/-- Takes the sign if it comes next. -/
def take? (s : String) : Reader Bool := do
  if ← atSign s then skip; return true
  else return false

/-- Takes the sign, which has to come next. -/
def take (s : String) : Reader Unit := do
  if !(← take? s) then failure

/-- Takes a comma if one comes next. -/
def comma? : Reader Bool := do
  match ← peek with
  | some (.comma _) => skip; return true
  | _ => return false

/-- Takes a comma that is not written if one comes next. -/
def lineEnd : Reader Unit := do
  match ← peek with
  | some (.comma false) => skip
  | _ => return ()

/-- Takes the comma behind a field, which may be missing at the end of the record. -/
def fieldEnd : Reader Unit := do
  match ← peek with
  | none => return ()
  | some (.sign "\x7d") => return ()
  | _ => if !(← comma?) then failure

/-- A name, which has to come next. -/
def name : Reader String := do
  match ← peek with
  | some (.word name) => skip; return name
  | _ => failure

/-- The words that are terms of their own. -/
def constant? : String → Option Atom
  | "null" => some .null
  | "true" => some (.bool true)
  | "false" => some (.bool false)
  | _ => none

/-- The operator before a term that a sign is. -/
def unary? : String → Option UnaryOp
  | "+" => some .plus
  | "-" => some .minus
  | "!" => some .not
  | "*" => some .preferred
  | ">" => some (.bound .greater)
  | ">=" => some (.bound .atLeast)
  | "<" => some (.bound .less)
  | "<=" => some (.bound .atMost)
  | "!=" => some (.bound .different)
  | "=~" => some (.bound (.meets true))
  | "!~" => some (.bound (.meets false))
  | _ => none

/-- The operator between two terms that a token is, and how tightly it binds. -/
def binary? : Token → Option (BinaryOp × Nat)
  | .sign "|" => some (.either, 1)
  | .sign "&" => some (.both, 2)
  | .sign "||" => some (.or, 3)
  | .sign "&&" => some (.and, 4)
  | .sign "==" => some (.equal, 5)
  | .sign "!=" => some (.compare .different, 5)
  | .sign "<" => some (.compare .less, 5)
  | .sign "<=" => some (.compare .atMost, 5)
  | .sign ">" => some (.compare .greater, 5)
  | .sign ">=" => some (.compare .atLeast, 5)
  | .sign "=~" => some (.compare (.meets true), 5)
  | .sign "!~" => some (.compare (.meets false), 5)
  | .sign "+" => some (.add, 6)
  | .sign "-" => some (.subtract, 6)
  | .sign "*" => some (.multiply, 7)
  | .sign "/" => some (.divide, 7)
  | .word "div" => some (.floorQuotient, 7)
  | .word "mod" => some (.floorRemainder, 7)
  | .word "quo" => some (.wholeQuotient, 7)
  | .word "rem" => some (.wholeRemainder, 7)
  | _ => none

/-- Passes over the inside of a remark up to its closing parenthesis. -/
def remarkRest : Nat → List String → Reader Unit
  | 0, _ => failure
  | _ + 1, [] => return ()
  | fuel + 1, closing :: outer => do
    match ← peek with
    | none => failure
    | some (.filled _ _) => failure
    | some (.sign s) =>
      skip
      if s = closing then remarkRest fuel outer
      else match s with
        | "(" => remarkRest fuel (")" :: closing :: outer)
        | "[" => remarkRest fuel ("]" :: closing :: outer)
        | "\x7b" => remarkRest fuel ("\x7d" :: closing :: outer)
        | ")" | "]" | "\x7d" => failure
        | _ => remarkRest fuel (closing :: outer)
    | some _ => skip; remarkRest fuel (closing :: outer)

/-- Passes over a remark behind its sign. -/
def remark (fuel : Nat) : Reader Unit := do
  let _ ← name
  take "("
  remarkRest fuel [")"]

/-- Passes over remarks behind a field. -/
def remarks : Nat → Reader Unit
  | 0 => failure
  | fuel + 1 => do
    if ← take? "@" then
      remark (fuel + 1)
      remarks fuel

/-- A term at the start of a declaration as the label of a field. A name that begins with two low lines
is nobody's. -/
def label? : Term → Option LabelTerm
  | .name "_" => none
  | .name name => if name.startsWith "__" then none else some (.fixed (.ofName name) true)
  | .atom (.text name) => some (.fixed (.field name) false)
  | .atom .null => some (.fixed (.field "null") false)
  | .atom (.bool true) => some (.fixed (.field "true") false)
  | .atom (.bool false) => some (.fixed (.field "false") false)
  | .filled parts last => some (.dynamic (.filled parts last))
  | .group term => some (.dynamic term)
  | .list [.item (.known other term)] => some (.pattern (some other) term)
  | .list [.item term] => some (.pattern none term)
  | _ => none

/-- Whether the mark or the colon of a field comes next. -/
def atField : Reader Bool := do
  match ← peek with
  | some (.sign s) => return s = ":" || s = "?" || s = "!"
  | _ => return false

/-- The mark behind a label. -/
def presence : Reader Presence := do
  if ← take? "?" then return .optional
  else if ← take? "!" then return .required
  else return .given

mutual

/-- Reads a term. -/
def term (fuel : Nat) : Reader Term :=
  match fuel with
  | 0 => failure
  | fuel + 1 => do binaryRest fuel 1 (← unary fuel)

/-- Reads operators that bind at least as tightly as `level`, with their right operands. -/
def binaryRest (fuel : Nat) (level : Nat) (left : Term) : Reader Term :=
  match fuel with
  | 0 => failure
  | fuel + 1 => do
    match (← peek).bind binary? with
    | none => return left
    | some (op, tightness) =>
      if tightness < level then return left
      else
        skip
        let right ← binaryRest fuel (tightness + 1) (← unary fuel)
        binaryRest fuel level (.binary op left right)

/-- Reads a term with the operators before it. -/
def unary (fuel : Nat) : Reader Term :=
  match fuel with
  | 0 => failure
  | fuel + 1 => do
    let op := match ← peek with
      | some (.sign s) => unary? s
      | _ => none
    match op with
    | some op => skip; return .unary op (← unary fuel)
    | none => primaryRest fuel (← operand fuel)

/-- Reads a term without operators. -/
def operand (fuel : Nat) : Reader Term :=
  match fuel with
  | 0 => failure
  | fuel + 1 => do
    match ← peek with
    | none => failure
    | some token =>
      skip
      match token with
      | .word word => return ((constant? word).map Term.atom).getD (.name word)
      | .int value => return .atom (.int value)
      | .decimal value => return .atom (.float value)
      | .text _ value => return .atom (.text value)
      | .bytes value => return .atom (.bytes value)
      | .filled parts last => return .filled (← holes fuel parts) last
      | .bottom => return .bottom
      | .sign "(" =>
        let inner ← term fuel
        lineEnd
        take ")"
        return .group inner
      | .sign "\x7b" =>
        let inner ← declarations fuel
        take "\x7d"
        return .record inner
      | .sign "[" => return .list (← elements fuel)
      | _ => failure

/-- Reads the terms in a text. -/
def holes (fuel : Nat) (parts : List (String × List Token)) : Reader (List (String × Term)) :=
  match fuel, parts with
  | _, [] => return []
  | 0, _ => failure
  | fuel + 1, (text, tokens) :: parts => do
    match (do let t ← term fuel; lineEnd; return t : Reader Term) tokens with
    | some (inner, []) => return (text, inner) :: (← holes fuel parts)
    | _ => failure

/-- Reads what follows a term: fields, items and arguments. -/
def primaryRest (fuel : Nat) (inner : Term) : Reader Term :=
  match fuel with
  | 0 => failure
  | fuel + 1 => do
    if ← take? "." then
      match ← peek with
      | some (.word word) => skip; primaryRest fuel (.select inner (.ofName word))
      | some (.text quote word) =>
        if quote.hashes ≠ 0 || quote.multiline || word.isEmpty then failure
        skip
        primaryRest fuel (.select inner (.field word))
      | _ => failure
    else if ← take? "[" then
      if ← take? ":" then
        let high ← if ← atSign "]" then pure none else some <$> term fuel
        take "]"
        primaryRest fuel (.slice inner none high)
      else
        let place ← term fuel
        if ← take? ":" then
          let high ← if ← atSign "]" then pure none else some <$> term fuel
          take "]"
          primaryRest fuel (.slice inner (some place) high)
        else
          lineEnd
          take "]"
          primaryRest fuel (.index inner place)
    else if ← take? "(" then primaryRest fuel (.call inner (← arguments fuel))
    else return inner

/-- Reads the arguments of a call up to its closing parenthesis. -/
def arguments (fuel : Nat) : Reader (List Term) :=
  match fuel with
  | 0 => failure
  | fuel + 1 => do
    if ← take? ")" then return []
    let first ← term fuel
    if ← comma? then return first :: (← arguments fuel)
    take ")"
    return [first]

/-- Reads the elements of a list up to its closing bracket. -/
def elements (fuel : Nat) : Reader (List Element) :=
  match fuel with
  | 0 => failure
  | fuel + 1 => do
    if ← take? "]" then return []
    if ← take? "..." then
      match ← peek with
      | some (.comma _) | some (.sign "]") =>
        let _ ← comma?
        take "]"
        return [.rest none]
      | _ =>
        let inner ← term fuel
        let _ ← comma?
        take "]"
        return [.rest (some inner)]
    let first ← element fuel
    match ← peek with
    | some (.comma true) => skip; return first :: (← elements fuel)
    | _ =>
      lineEnd
      take "]"
      return [first]

/-- Reads an element of a list. -/
def element (fuel : Nat) : Reader Element :=
  match fuel with
  | 0 => failure
  | fuel + 1 => do
    if (← atWord "for") || (← atWord "if") then
      let clauses ← clauses fuel
      let body ← operand fuel
      return .comprehension clauses body
    let inner ← term fuel
    if ← take? "=" then
      match inner with
      | .name other => return .item (.known other (← term fuel))
      | _ => failure
    else return .item inner

/-- Reads the clauses before the body of a comprehension. -/
def clauses (fuel : Nat) : Reader (List Clause) :=
  match fuel with
  | 0 => failure
  | fuel + 1 => do
    if ← atWord "for" then
      skip
      let first ← name
      let second ← if ← comma? then some <$> name else pure none
      if !(← atWord "in") then failure
      skip
      let source ← term fuel
      lineEnd
      let clause := match second with
        | some second => Clause.forEach (some first) second source
        | none => .forEach none first source
      return clause :: (← clauses fuel)
    else if ← atWord "if" then
      skip
      let condition ← term fuel
      lineEnd
      return .condition condition :: (← clauses fuel)
    else if ← atWord "let" then
      skip
      let other ← name
      take "="
      let inner ← term fuel
      lineEnd
      return .binding other inner :: (← clauses fuel)
    else return []

/-- Reads one declaration. Words with a meaning are labels if a colon follows. -/
def declaration (fuel : Nat) : Reader Declaration :=
  match fuel with
  | 0 => failure
  | fuel + 1 => do
    if ← take? "..." then return .others
    let tokens ← get
    let labelled := match tokens with
      | _ :: .sign s :: _ => s = ":" || s = "?" || s = "!"
      | _ => false
    if !labelled && ((← atWord "for") || (← atWord "if")) then
      let clauses ← clauses fuel
      if !(← atSign "\x7b") then failure
      return .comprehension clauses (← operand fuel)
    if !labelled && (← atWord "let") then
      skip
      let other ← name
      take "="
      return .binding other (← term fuel)
    let first ← term fuel
    if ← take? "=" then
      match first with
      | .name other =>
        let second ← term fuel
        if ← atField then field fuel (some other) second
        else return .embedded (.known other second)
      | _ => failure
    else if ← atField then field fuel none first
    else match first with
      | .name word => if word.startsWith "__" then failure else return .embedded first
      | _ => return .embedded first

/-- Reads a field behind its label. -/
def field (fuel : Nat) (other : Option String) (labelTerm : Term) : Reader Declaration :=
  match fuel with
  | 0 => failure
  | fuel + 1 => do
    match label? labelTerm with
    | none => failure
    | some label =>
      let presence ← presence
      take ":"
      match ← declaration fuel with
      | .embedded inner =>
        remarks fuel
        return .field other label presence inner
      | .field other' label' presence' inner =>
        return .field other label presence (.record [.field other' label' presence' inner])
      | _ => failure

/-- Reads declarations up to a closing brace or the end. -/
def declarations (fuel : Nat) : Reader (List Declaration) :=
  match fuel with
  | 0 => failure
  | fuel + 1 => do
    match ← peek with
    | none => return []
    | some (.sign "\x7d") => return []
    | some (.sign "@") =>
      skip
      remark fuel
      fieldEnd
      declarations fuel
    | _ =>
      let first ← declaration fuel
      fieldEnd
      return first :: (← declarations fuel)

end

/-- Passes over the name of a package, which may come first in a file. -/
def package : Reader Unit := do
  if ← atWord "package" then
    skip
    let _ ← name
    if !(← comma?) then failure

/-- Reads a file. Files that other files are taken into are not known here. -/
def file (fuel : Nat) : Reader Term := do
  package
  if ← atWord "import" then failure
  return .record (← declarations fuel)

end Reader

namespace Term

/-- Reads tokens to their end. -/
def readAll? (reader : Nat → Reader Term) (tokens : List Token) : Option Term :=
  match reader (20 * (tokens.length + 10)) tokens with
  | some (term, []) => some term
  | _ => none

/-- Reads a file. -/
def parse? (text : List Char) : Option Term := do
  readAll? Reader.file (← Token.scan? text)

/-- Reads a text that is one term. -/
def parseOne? (text : List Char) : Option Term := do
  readAll? (fun fuel => do let t ← Reader.term fuel; Reader.lineEnd; return t) (← Token.scan? text)

end Term

end TapeMachine.Config
