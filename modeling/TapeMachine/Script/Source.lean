/-
Reading tokens from a script.

A script is either given as a whole or typed in line by line. Lines that are typed in are taken only when
a token needs them, and an empty one closes the blocks that are open. Indentation counts outside of
brackets: a deeper line opens a block, and a shallower one closes those that are deeper than it.

* `Source.ofText` and `Source.ofLines` begin a script;
* `Source.token` reads the next token, or says why there is none.
-/
import TapeMachine.Script.Literal
import TapeMachine.Script.Token
import TapeMachine.Text.Letter

namespace TapeMachine.Script

/-- Why no token can be read. -/
inductive Trouble where
  | malformed (error : SyntaxError)
  /-- The lines that are typed in have come to their end. -/
  | exhausted
deriving DecidableEq, Repr

/-- What is left to read of a script. -/
structure Source where
  /-- What is left of the text or line at hand. -/
  rest : List Char
  /-- Whether lines are typed in. -/
  interactive : Bool := false
  /-- The lines that are not yet read. -/
  pending : List (List Char) := []
  position : Position := {}
  /-- The number of brackets that are open. -/
  depth : Nat := 0
  /-- The indentation of the blocks that are open, innermost first. -/
  indents : List Nat := [0]
  /-- The blocks whose opening or closing is still to be told: positive ones open, negative ones close. -/
  blocks : Int := 0
  /-- Whether the line has no token yet. -/
  fresh : Bool := true
deriving Repr

/-- An action on a source; what was read stays read if it fails. -/
abbrev Scan := EStateM Trouble Source

namespace Source

/-- Line breaks of all kinds as line feeds. -/
def unifyBreaks : List Char → List Char
  | [] => []
  | '\r' :: '\n' :: rest => '\n' :: unifyBreaks rest
  | c :: rest => (if c = '\r' then '\n' else c) :: unifyBreaks rest

/-- A script that is given as a whole. -/
def ofText (text : List Char) : Source :=
  { rest := unifyBreaks text }

/-- A script that is typed in. -/
def ofLines (lines : List (List Char)) : Source :=
  { rest := [], interactive := true, pending := lines.map unifyBreaks }

/-- The number of characters that are left. -/
def size (s : Source) : Nat :=
  s.rest.length + (s.pending.map List.length).foldr (· + ·) 0

/-- Fails at a place. -/
def failAt {α : Type} (position : Position) (message : String) : Scan α :=
  throw (.malformed ⟨position, utf8 message⟩)

/-- Takes the next line if there is nothing left of the one at hand. -/
def fill : Scan Unit := do
  let s ← get
  if s.rest.isEmpty && s.interactive then
    match s.pending with
    | [] => throw .exhausted
    | line :: pending => set { s with rest := line, pending }

/-- What is left of the text or line at hand. -/
def ahead : Scan (List Char) := do
  fill
  return (← get).rest

/-- The next character; a zero byte counts as the end. -/
def peek : Scan (Option Char) := do
  return (← ahead).head?.filter (·.toNat ≠ 0)

/-- Passes over characters of the line at hand. -/
def skip (n : Nat) : Scan Unit :=
  modify fun s =>
    { s with rest := s.rest.drop n, position := (s.rest.take n).foldl Position.after s.position }

/-- The width of blanks. A tabulator is as wide as it takes from the number of characters before it to the
next multiple of eight. -/
def indentation (blanks : List Char) : Nat :=
  (blanks.zipIdx.map fun (c, i) => if c = '\t' then 8 - i % 8 else 1).foldr (· + ·) 0

/-- Whether a character is a blank within a line. -/
def isSpace (c : Char) : Bool :=
  c = ' ' || c = '\t'

/-- Passes over blanks, and gives their width. -/
def skipSpaces : Scan Nat := do
  let blanks := (← ahead).takeWhile isSpace
  skip blanks.length
  return indentation blanks

/-- Whether nothing but a comment follows on the line. -/
def endsLine (c : Option Char) : Bool :=
  c.all fun c => c = '#' || c = '\n'

/-- Opens or closes blocks at a line of some indentation. -/
def settle (column : Nat) : Scan Unit := do
  let s ← get
  let current := s.indents.headD 0
  if current < column then set { s with indents := column :: s.indents, blocks := s.blocks + 1 }
  else if column < current then
    let (deeper, left) := s.indents.span (column < ·)
    set { s with indents := left, blocks := s.blocks - deeper.length }
    if left.head? ≠ some column then
      failAt s.position "unindent does not match any outer indentation level"

/-- Closes all blocks. -/
def closeAll : Scan Unit :=
  modify fun s => { s with indents := [0], blocks := 1 - s.indents.length }

/-- Whether a name may begin with a character. -/
def beginsName (c : Char) : Bool :=
  c = '_' || isLetter c

/-- Whether a name may go on with a character. -/
def continuesName (c : Char) : Bool :=
  beginsName c || c.isDigit

/-! ### Strings -/

/-- A literal of text or bytes. -/
def literal (style : Literal.Style) (start : Position) (content : List Char) : Scan Symbol :=
  match Literal.decode style (utf8 (String.ofList content)) with
  | .error message => throw (.malformed ⟨start, message⟩)
  | .ok value => return if style.bytes then .bytes value else .text value

/-- The next character of a string. -/
def stringChar (start : Position) : Scan Char := do
  match ← ahead with
  | [] => failAt start "unexpected EOF in string"
  | c :: _ => skip 1; return c

/-- The content of a string up to its closing quotes, of which `closing` are wanted and `met` were met
last. The characters read so far come newest first. -/
def stringBody (start : Position) (quote : Char) (closing : Nat) :
    Nat → Nat → List Char → Scan (List Char)
  | 0, _, _ => failAt start "unexpected EOF in string"
  | fuel + 1, met, read => do
    let c ← stringChar start
    if c = quote then
      if met + 1 = closing then return (read.drop met).reverse
      else stringBody start quote closing fuel (met + 1) (c :: read)
    else if c = '\n' && closing = 1 then failAt start "unexpected newline in string"
    else if c = '\\' then
      let d ← stringChar start
      stringBody start quote closing fuel 0 (d :: c :: read)
    else stringBody start quote closing fuel 0 (c :: read)

/-- A string from its opening quote on. -/
def string (style : Literal.Style) (quote : Char) : Scan Symbol := do
  let s ← get
  let triple := s.rest.take 3 = [quote, quote, quote]
  skip (if triple then 3 else 1)
  let content ← stringBody s.position quote (if triple then 3 else 1) (s.size + 1) 0 []
  literal style s.position content

/-- The style and the opening quote of a string, and the number of letters that mark the style. -/
def stringStart? : List Char → Option (Literal.Style × Char × Nat)
  | 'r' :: 'b' :: c :: _ => if isQuote c then some ({ raw := true, bytes := true }, c, 2) else none
  | 'r' :: c :: _ => if isQuote c then some ({ raw := true }, c, 1) else none
  | 'b' :: c :: _ => if isQuote c then some ({ bytes := true }, c, 1) else none
  | c :: _ => if isQuote c then some ({}, c, 0) else none
  | [] => none
where
  /-- Whether a character is a quote. -/
  isQuote (c : Char) : Bool := c = '"' || c = '\x27'

/-! ### Tokens -/

/-- A character in single quotes, as messages show it. -/
def showChar (c : Char) : String :=
  let body := if c = '\x27' then ['\\', c] else if c = '"' then [c] else Quoted.quoteChar c
  "'" ++ String.ofList body ++ "'"

/-- The sign at the start of a text; brackets are counted. -/
def sign (start : Position) (cs : List Char) : Scan Symbol := do
  match Token.signs.find? fun s => s.toList.isPrefixOf cs with
  | none => failAt start ("unexpected input character " ++ showChar (cs.headD '\x00'))
  | some sign =>
    let s ← get
    if ["(", "[", "\x7b"].contains sign then set { s with depth := s.depth + 1 }
    if [")", "]", "\x7d"].contains sign then
      if s.depth = 0 then failAt start ("unexpected '" ++ sign ++ "'")
      set { s with depth := s.depth - 1 }
    skip sign.length
    return .sign sign

/-- The symbol at the start of a line that begins with neither a blank nor a comment nor its end. -/
def symbol (start : Position) : Scan Symbol := do
  let cs ← ahead
  match stringStart? cs with
  | some (style, quote, letters) => skip letters; string style quote
  | none =>
    let c := cs.headD '\x00'
    if beginsName c then
      let word := cs.takeWhile continuesName
      skip word.length
      return Token.word (String.ofList word)
    else if c.isDigit || c = '.' then
      match Token.readNumber cs with
      | .error mistake => failAt (start.right mistake.offset) mistake.message
      | .ok (symbol, n) => skip n; return symbol
    else sign start cs

/-- The token of a block that opens or closes. -/
def block : Scan Token := do
  let s ← get
  if s.blocks < 0 then
    set { s with blocks := s.blocks + 1 }
    return ⟨.outdent, s.position⟩
  else
    set { s with blocks := s.blocks - 1 }
    return ⟨.indent, s.position⟩

/-- Reads the next token, passing over at most `fuel` lines and continuations. -/
def tokenFrom : Nat → Scan Token
  | 0 => return ⟨.done, (← get).position⟩
  | fuel + 1 => do
    let fresh := (← get).fresh
    let mut blank := false
    if fresh then
      modify fun s => { s with fresh := false }
      let column ← skipSpaces
      blank := endsLine (← peek)
      if !blank && (← get).depth = 0 then settle column
    if (← get).blocks ≠ 0 then return ← block
    let _ ← skipSpaces
    if (← peek) = some '#' then
      let comment := (← ahead).takeWhile fun c => c ≠ '\n' && c.toNat ≠ 0
      skip comment.length
    let start := (← get).position
    match ← peek with
    | none =>
      if (← get).indents.length ≤ 1 then return ⟨.done, start⟩
      else if fresh then
        closeAll
        tokenFrom fuel
      else
        modify fun s => { s with fresh := true }
        return ⟨.newline, start⟩
    | some c =>
      if c = '\n' then
        modify fun s => { s with fresh := true }
        let s ← get
        if s.depth ≠ 0 || blank && !s.interactive then
          skip 1
          tokenFrom fuel
        else if blank && 1 < s.indents.length then
          closeAll
          tokenFrom fuel
        else
          skip 1
          return ⟨.newline, start⟩
      else if c = '\\' then
        skip 1
        if (← peek) ≠ some '\n' then failAt (← get).position "stray backslash in program"
        skip 1
        tokenFrom fuel
      else return ⟨← symbol start, start⟩

/-- Reads the next token. -/
def token : Scan Token := do
  tokenFrom ((← get).size + 3)

end Source

end TapeMachine.Script
