/-
Words and signs of settings files.

A line break behind a word, a number, a text or a closing sign counts as a comma, so fields may stand
on lines of their own or be divided by commas; it does not if a comma or a colon comes next. `//` begins a
comment.

* `Token.scan?` cuts a text into tokens, if it has no malformed ones.
-/
import TapeMachine.Config.Quoted
import TapeMachine.Text.Letter

namespace TapeMachine.Config

/-- A word or sign. -/
inductive Token where
  /-- A name, or a word with a meaning. -/
  | word (word : String)
  | int (value : Nat)
  | decimal (value : Rat)
  | text (quote : Quote) (value : String)
  | bytes (value : Bytes)
  /-- A text with terms in it, each behind a part of the text, and the part behind the last of them. -/
  | filled (parts : List (String × List Token)) (last : String)
  /-- The value that no field can have. -/
  | bottom
  | sign (sign : String)
  /-- A comma, which may be implied by a line break. -/
  | comma (written : Bool)
deriving Inhabited

namespace Token

/-- The signs, longer ones before those that they begin with. -/
def signs : List String :=
  ["...", ">=", "<=", "!=", "==", "=~", "!~", "&&", "||", ":", "?", "!", "\x7b", "\x7d", "[", "]", "(", ")",
    "&", "|", ".", "-", "+", "*", "/", ">", "<", "=", "@"]

/-- Whether a line break behind the token counts as a comma. -/
def endsField : Token → Bool
  | .sign s => ["\x7d", "]", ")", "...", "?"].contains s
  | .comma _ => false
  | _ => true

/-! ### Numbers -/

/-- Whether a character is a digit in a base or a low line between digits. -/
def inDigits (base : Nat) (c : Char) : Bool :=
  c = '_' || (Quote.digit? base c).isSome

/-- Whether no low line stands at the end or next to another. -/
def linesApart : List Char → Bool
  | ['_'] => false
  | '_' :: '_' :: _ => false
  | _ :: rest => linesApart rest
  | [] => true

/-- The digits at the start of a text without the low lines in them, and what follows. -/
def digits? (base : Nat) (cs : List Char) : Option (List Char × List Char) :=
  let (digits, rest) := cs.span (inDigits base)
  if linesApart digits then some (digits.filter (· ≠ '_'), rest) else none

/-- The value of digits in a base. -/
def value (base : Nat) (digits : List Char) : Nat :=
  digits.foldl (fun n c => n * base + (Quote.digit? base c).getD 0) 0

/-- The number of thousands that a letter behind a number stands for. -/
def thousands? : Char → Option Nat
  | 'K' => some 1
  | 'M' => some 2
  | 'G' => some 3
  | 'T' => some 4
  | 'P' => some 5
  | _ => none

/-- The factor at the start of a text, decimal or binary, and what follows. -/
def factor? : List Char → Option (Nat × List Char)
  | c :: 'i' :: rest => (thousands? c).map fun n => (Nat.pow 1024 n, rest)
  | c :: rest => (thousands? c).map fun n => (Nat.pow 1000 n, rest)
  | [] => none

/-- The largest exponent of a number. -/
def maxExponent : Nat := 100000

/-- An exponent with its sign, and what follows. -/
def exponent? (cs : List Char) : Option (Int × List Char) := do
  let (unit, cs) : Int × List Char := match cs with
    | '-' :: rest => (-1, rest)
    | '+' :: rest => (1, rest)
    | _ => (1, cs)
  let (digits, rest) ← digits? 10 cs
  if digits.isEmpty || maxExponent < value 10 digits then none
  else some (unit * value 10 digits, rest)

/-- A power of ten. -/
def tenTo (e : Int) : Rat :=
  if 0 ≤ e then (Nat.pow 10 e.toNat : Int) else mkRat 1 (Nat.pow 10 e.natAbs)

/-- The rest of a number behind its whole digits: a fraction, then a factor or an exponent. With a factor
the number has to be whole. -/
def decimal? (whole cs : List Char) : Option (Token × List Char) := do
  let (places, pointed, cs) ← match cs with
    | '.' :: '.' :: _ => some ([], false, cs)
    | '.' :: rest => (digits? 10 rest).map fun (places, rest) => (places, true, rest)
    | _ => some ([], false, cs)
  let significand : Rat := (value 10 (whole ++ places) : Int) * tenTo (-(places.length : Int))
  match factor? cs with
  | some (factor, rest) =>
    let n := significand * (factor : Int)
    if n.den = 1 then some (.int n.num.toNat, rest) else none
  | none =>
    match cs with
    | c :: power =>
      if c = 'e' || c = 'E' then
        let (e, rest) ← exponent? power
        some (.decimal (significand * tenTo e), rest)
      else some (if pointed then .decimal significand else .int significand.num.toNat, cs)
    | [] => some (if pointed then .decimal significand else .int significand.num.toNat, [])

/-- A whole number in a base, which has at least one digit. -/
def based? (base : Nat) (cs : List Char) : Option (Token × List Char) := do
  let (digits, rest) ← digits? base cs
  if digits.isEmpty then none else some (.int (value base digits), rest)

/-- Reads a number: with a base of its own, or with decimal digits. Only a number with a point or an
exponent may begin with a zero and go on with digits. -/
def number? (cs : List Char) : Option (Token × List Char) :=
  match cs with
  | '0' :: 'x' :: rest => based? 16 rest
  | '0' :: 'X' :: rest => based? 16 rest
  | '0' :: 'o' :: rest => based? 8 rest
  | '0' :: 'b' :: rest => based? 2 rest
  | '0' :: rest =>
    let more := rest.head?.any Char.isDigit
    match if more then digits? 10 rest else some ([], rest) with
    | none => none
    | some (digits, rest) =>
      if rest.head?.any fun c => c = '.' || c = 'e' || c = 'E' then decimal? digits rest
      else if more then none
      else some (.int 0, rest)
  | _ => do
    let (digits, rest) ← digits? 10 cs
    decimal? digits rest

/-! ### Names -/

/-- Whether a name may begin with a character. -/
def beginsName (c : Char) : Bool :=
  isLetter c || c = '_' || c = '$' || c = '#'

/-- Whether a name may go on with a character. -/
def continuesName (c : Char) : Bool :=
  isLetter c || isDecimalDigit c || c = '_' || c = '$'

/-- The name at the start of a text, and what follows. A low line and a number sign may come first; a digit
may not follow a number sign. -/
def name (cs : List Char) : List Char × List Char :=
  let (line, cs) := if cs.head? = some '_' then (['_'], cs.drop 1) else ([], cs)
  let (hash, cs) := if cs.head? = some '#' then (['#'], cs.drop 1) else ([], cs)
  if hash ≠ [] && cs.head?.any isDecimalDigit then (line ++ hash, cs)
  else
    let (more, rest) := cs.span continuesName
    (line ++ hash ++ more, rest)

/-- The word or sign at the start of a text, which is neither a number nor a text in quotes. -/
def wordOrSign? (cs : List Char) : Option (Token × List Char) :=
  match cs with
  | '_' :: '|' :: '_' :: rest => some (.bottom, rest)
  | '_' :: '|' :: _ => none
  | ',' :: rest => some (.comma true, rest)
  | c :: _ =>
    if beginsName c then
      let (letters, rest) := name cs
      some (.word (String.ofList letters), rest)
    else (signs.find? fun s => s.toList.isPrefixOf cs).map fun s => (.sign s, cs.drop s.length)
  | [] => none

/-! ### Scanning -/

/-- Whether a character is a blank. -/
def isSpace (c : Char) : Bool :=
  c = ' ' || c = '\t' || c = '\r' || c = '\n'

/-- Whether a field goes on behind a line break. -/
def goesOn (cs : List Char) : Bool :=
  (cs.dropWhile isSpace).head?.any fun c => c = ',' || c = ':'

/-- The token of a text in quotes, from its pieces and the terms in it. -/
def quoted? (quote : Quote) (pieces : List Piece) (terms : List (List Token)) : Option Token := do
  let pieces ← quote.trim? pieces
  if terms.isEmpty then
    if quote.isBytes then return .bytes (← Piece.bytes? pieces)
    else return .text quote (String.ofList (← Piece.text? pieces))
  else
    let parts ← (Piece.cut pieces).mapM Piece.text?
    let texts := parts.map String.ofList
    if quote.isBytes then none
    else return .filled (texts.zip terms) (texts.getLastD "")

mutual

/-- Reads the pieces of a text up to its closing quotes, the terms in it, and what follows; `count` terms
were read before. -/
def piecesFrom : Nat → Quote → Nat → List Char → Option (List Piece × List (List Token) × List Char)
  | 0, _, _, _ => none
  | fuel + 1, quote, count, cs =>
    if quote.closing.isPrefixOf cs then some ([], [], cs.drop quote.closing.length)
    else match cs with
      | [] => none
      | c :: rest =>
        if c = '\n' && !quote.multiline then none
        else if c = '\\' && (List.replicate quote.hashes '#').isPrefixOf rest then
          match rest.drop quote.hashes with
          | '(' :: rest => do
            let (term, rest) ← scanFrom fuel (some 0) false rest
            let (pieces, terms, rest) ← piecesFrom fuel quote (count + 1) rest
            return (.hole count :: pieces, term :: terms, rest)
          | rest => do
            let (piece, rest) ← quote.escape? rest
            let (pieces, terms, rest) ← piecesFrom fuel quote count rest
            return (piece :: pieces, terms, rest)
        else do
          let (pieces, terms, rest) ← piecesFrom fuel quote count rest
          return (.plain c :: pieces, terms, rest)

/-- The first token of a text that begins with none of blank, line break and comment. -/
def read? : Nat → List Char → Option (Token × List Char)
  | 0, _ => none
  | fuel + 1, cs =>
    match Quote.opening? cs with
    | some (quote, rest) => do
      let (pieces, terms, rest) ← piecesFrom fuel quote 0 rest
      return (← quoted? quote pieces terms, rest)
    | none =>
      let quotes := (cs.dropWhile (· = '#')).head?.any fun c => c = '"' || c = '\x27'
      if quotes then none
      else if cs.head?.any Char.isDigit then number? cs
      else if cs.head? = some '.' && (cs.drop 1).head?.any Char.isDigit then decimal? [] cs
      else wordOrSign? cs

/-- Reads at most `fuel` tokens, blanks and comments. `open?` is the number of open parentheses within a
term in a text, which ends where one too many closes; `ends` tells whether a line break counts as a
comma. -/
def scanFrom : Nat → Option Nat → Bool → List Char → Option (List Token × List Char)
  | 0, _, _, _ => none
  | fuel + 1, open?, ends, cs =>
    match cs with
    | [] => if open?.isSome then none else some (if ends then [.comma false] else [], [])
    | '\n' :: rest =>
      if ends && !goesOn rest then do
        let (tokens, rest) ← scanFrom fuel open? false rest
        return (.comma false :: tokens, rest)
      else scanFrom fuel open? ends rest
    | '/' :: '/' :: rest => do
      let (tokens, rest) ← scanFrom fuel open? false (rest.dropWhile (· ≠ '\n'))
      return (if ends then .comma false :: tokens else tokens, rest)
    | c :: rest =>
      if isSpace c then scanFrom fuel open? ends rest
      else do
        let (token, rest) ← read? fuel cs
        let more (open? : Option Nat) : Option (List Token × List Char) := do
          let (tokens, rest) ← scanFrom fuel open? token.endsField rest
          return (token :: tokens, rest)
        match token with
        | .sign "(" => more (open?.map (· + 1))
        | .sign ")" => if open? = some 0 then some ([], rest) else more (open?.map (· - 1))
        | _ => more open?

end

/-- Whether a character may stand nowhere in a file: the zero character, and the mark of the byte order. -/
def isForbidden (c : Char) : Bool :=
  c.toNat = 0 || c.toNat = 0xfeff

/-- Cuts a text into tokens. A mark of the byte order may come first. -/
def scan? (cs : List Char) : Option (List Token) :=
  let cs := if cs.head?.any fun c => c.toNat = 0xfeff then cs.drop 1 else cs
  if cs.any isForbidden then none else (scanFrom (2 * cs.length + 4) none false cs).map (·.1)

end Token

end TapeMachine.Config
