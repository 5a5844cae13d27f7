/-
Words and signs of scripts.

* `Symbol` is what a token is, `Symbol.describe` names it in messages;
* `SyntaxError` is what is wrong with a malformed script, and where;
* `Token.readNumber` reads a number from the characters of a line.
-/
import TapeMachine.Number.Binary

namespace TapeMachine.Script

/-- A place in a script, counted from one. -/
structure Position where
  line : Nat := 1
  column : Nat := 1
deriving DecidableEq, Repr, Inhabited

namespace Position

/-- The place behind a character. -/
def after (p : Position) (c : Char) : Position :=
  if c = '\n' then ⟨p.line + 1, 1⟩ else ⟨p.line, p.column + 1⟩

/-- The place some characters further on its line. -/
def right (p : Position) (n : Nat) : Position :=
  ⟨p.line, p.column + n⟩

/-- A place in a file. -/
def text (file : String) (p : Position) : String :=
  file ++ ":" ++ decimal p.line ++ ":" ++ decimal p.column

end Position

/-- A malformed script: the place and what is wrong. -/
structure SyntaxError where
  position : Position
  message : Bytes
deriving DecidableEq, Repr

/-- What a token is. -/
inductive Symbol where
  | name (name : String)
  | keyword (word : String)
  | int (value : Nat)
  /-- A floating point number of 64 bits. -/
  | float (bits : Nat)
  | text (value : Bytes)
  | bytes (value : Bytes)
  | sign (sign : String)
  | newline
  | indent
  | outdent
  | done
deriving DecidableEq, Repr, Inhabited

/-- The name of a token in messages. -/
def Symbol.describe : Symbol → String
  | name _ => "identifier"
  | keyword word => word
  | int _ => "int literal"
  | float _ => "float literal"
  | text _ => "string literal"
  | bytes _ => "bytes literal"
  | sign s => "'" ++ s ++ "'"
  | newline => "newline"
  | indent => "indent"
  | outdent => "outdent"
  | done => "end of file"

/-- A token with the place where it starts. -/
structure Token where
  symbol : Symbol
  start : Position
deriving DecidableEq, Repr, Inhabited

namespace Token

/-- The words that are no names. The last ones have no meaning yet. -/
def keywords : List String :=
  ["and", "break", "continue", "def", "elif", "else", "for", "if", "in", "lambda", "load", "not", "or",
    "pass", "return", "while",
    "as", "async", "await", "class", "del", "except", "finally", "from", "global", "import", "is",
    "nonlocal", "raise", "try", "with", "yield"]

/-- The signs, longer ones before those that they begin with. -/
def signs : List String :=
  ["//=", ">>=", "<<=", "==", "!=", "<=", ">=", "//", "**", "<<", ">>", "+=", "-=", "*=", "/=", "%=",
    "&=", "|=", "^=", "+", "-", "*", "/", "%", "&", "|", "^", "~", "<", ">", "=", "(", ")", "[", "]",
    "\x7b", "\x7d", ",", ":", ".", ";"]

/-- The symbol of a word. -/
def word (text : String) : Symbol :=
  if keywords.contains text then .keyword text else .name text

/-! ### Numbers -/

/-- A mistake some characters behind the start of a token. -/
structure Mistake where
  offset : Nat
  message : String
deriving DecidableEq, Repr

/-- A symbol and the number of its characters. -/
abbrev Reading := Except Mistake (Symbol × Nat)

/-- Whether a character is a digit of a base. -/
def isDigitOf (base : Nat) (c : Char) : Bool :=
  c.isAlphanum && (Number.digitValue? c.val.toUInt8).any (· < base)

/-- The value of digits in a base. -/
def valueOf (base : Nat) (digits : List Char) : Nat :=
  digits.foldl (fun n c => n * base + (Number.digitValue? c.val.toUInt8).getD 0) 0

/-- The number of digits at the start. -/
def countDigits (cs : List Char) : Nat :=
  (cs.takeWhile Char.isDigit).length

/-- Whether the character at a place is one of some. -/
def isAt (cs : List Char) (i : Nat) (options : List Char) : Bool :=
  (cs[i]?).any options.contains

/-- A whole number in a base behind its mark of two characters. Bases eight and two have 64 bits. -/
def readBased (base : Nat) (missing : Mistake) (cs : List Char) : Reading :=
  let digits := (cs.drop 2).takeWhile (isDigitOf base)
  if digits.isEmpty then .error missing
  else if base < 10 && Nat.pow 2 63 ≤ valueOf base digits then .error ⟨0, "invalid int literal"⟩
  else .ok (.int (valueOf base digits), digits.length + 2)

/-- A floating point number whose first `n` characters stand before the exponent. -/
def readFloat (cs : List Char) (n : Nat) : Reading :=
  let finish (stop : Nat) : Reading :=
    match Number.parseFloat .double (utf8 (String.ofList (cs.take stop))) with
    | .ok bits => .ok (.float bits, stop)
    | .error _ => .error ⟨stop, "invalid float literal"⟩
  if !isAt cs n ['e', 'E'] then finish n
  else if isAt cs (n + 1) ['+', '-'] then
    let digits := countDigits (cs.drop (n + 2))
    if digits = 0 then .error ⟨n + 2, "invalid float literal"⟩ else finish (n + 2 + digits)
  else finish (n + 1 + countDigits (cs.drop (n + 1)))

/-- A number that begins with decimal digits: a whole number has no zero before other digits. -/
def readDecimal (cs : List Char) : Reading :=
  let n := countDigits cs
  let digits := cs.take n
  if isAt cs n ['.'] then readFloat cs (n + 1 + countDigits (cs.drop (n + 1)))
  else if isAt cs n ['e', 'E'] then readFloat cs n
  else if digits.head? ≠ some '0' || digits.all (· = '0') then .ok (.int (valueOf 10 digits), n)
  else if digits.all (isDigitOf 8) then
    .error ⟨n, "obsolete form of octal literal; use 0o" ++ String.ofList (digits.drop 1)⟩
  else .error ⟨0, "invalid int literal"⟩

/-- Reads a number, or a point that begins none. -/
def readNumber (cs : List Char) : Reading :=
  match cs with
  | '.' :: rest =>
    let n := countDigits rest
    if n = 0 then .ok (.sign ".", 1) else readFloat cs (n + 1)
  | '0' :: c :: _ =>
    if c = 'x' || c = 'X' then readBased 16 ⟨0, "invalid hex literal"⟩ cs
    else if c = 'o' || c = 'O' then readBased 8 ⟨2, "invalid octal literal"⟩ cs
    else if c = 'b' || c = 'B' then readBased 2 ⟨2, "invalid binary literal"⟩ cs
    else readDecimal cs
  | _ => readDecimal cs

end Token

end TapeMachine.Script
