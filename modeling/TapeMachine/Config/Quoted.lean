/-
Texts in quotes, as settings files write them.

A text stands between quotes of one kind, on one line, or between three quotes of a kind on lines of its
own. Number signs around the quotes make backslashes and quotes plain unless as many number signs follow
them. In a text on lines of its own the blanks before the closing quotes are taken from the start of every
line.

* `Quote.opening?` reads opening quotes;
* `Quote.escape?` reads what follows a backslash;
* `Quote.trim?` takes the indentation and the last line break away;
* `Piece.text?` and `Piece.bytes?` give what the pieces of a text stand for.
-/
import TapeMachine.Text.Utf8

namespace TapeMachine.Config

/-- A piece of a text in quotes. -/
inductive Piece where
  /-- A character that stands for itself. -/
  | plain (c : Char)
  | escaped (c : Char)
  /-- A number of a code point, or of a half of a pair that stands for one. -/
  | unit (n : Nat)
  | byte (b : UInt8)
  /-- A line break that is taken away. -/
  | joint
  /-- The place of a term, by its number. -/
  | hole (n : Nat)
deriving DecidableEq, Repr

/-- How a text is quoted. -/
structure Quote where
  sign : Char
  hashes : Nat := 0
  /-- Whether it stands on lines of its own. -/
  multiline : Bool := false
deriving DecidableEq, Repr

namespace Quote

/-- Whether the text is one of bytes. -/
def isBytes (q : Quote) : Bool :=
  q.sign = '\x27'

/-- The closing quotes. -/
def closing (q : Quote) : List Char :=
  List.replicate (if q.multiline then 3 else 1) q.sign ++ List.replicate q.hashes '#'

/-- A line break at the start of a text, of either kind, and what follows it. -/
def lineBreak? : List Char → Option (List Char)
  | '\n' :: rest => some rest
  | '\r' :: '\n' :: rest => some rest
  | _ => none

/-- Reads opening quotes. Three of them need a line break behind them; with number signs they are otherwise
one quote and two that belong to the text. -/
def opening? (cs : List Char) : Option (Quote × List Char) :=
  let hashes := (cs.takeWhile (· = '#')).length
  match cs.drop hashes with
  | sign :: rest =>
    if sign ≠ '"' && sign ≠ '\x27' then none
    else if rest.take 2 = [sign, sign] then
      match lineBreak? (rest.drop 2) with
      | some rest => some ({ sign, hashes, multiline := true }, rest)
      | none => if hashes = 0 then none else some ({ sign, hashes }, rest)
    else some ({ sign, hashes }, rest)
  | [] => none

/-- The character that a letter behind a backslash stands for. -/
def short? : Char → Option Char
  | 'a' => some '\x07'
  | 'b' => some '\x08'
  | 'f' => some '\x0c'
  | 'n' => some '\n'
  | 'r' => some '\r'
  | 't' => some '\t'
  | 'v' => some '\x0b'
  | '/' => some '/'
  | '\\' => some '\\'
  | _ => none

/-- The value of a digit in a base of at most sixteen. -/
def digit? (base : Nat) (c : Char) : Option Nat :=
  let value := if c.isDigit then c.toNat - 48 else c.toLower.toNat - 87
  if c.isAlphanum && value < base then some value else none

/-- The number that some digits at the start of a text make, and what follows them. -/
def digits? (base : Nat) : Nat → Nat → List Char → Option (Nat × List Char)
  | 0, n, rest => some (n, rest)
  | count + 1, n, c :: rest => (digit? base c).bind fun d => digits? base count (n * base + d) rest
  | _ + 1, _, [] => none

/-- A code point by its number. -/
def codePoint? : Nat × List Char → Option (Piece × List Char)
  | (n, rest) => if n ≤ 0x10ffff then some (.unit n, rest) else none

/-- A byte by its number. -/
def byte? : Nat × List Char → Option (Piece × List Char)
  | (n, rest) => if n ≤ 255 then some (.byte n.toUInt8, rest) else none

/-- Reads what follows a backslash and its number signs. Bytes by number are for texts of bytes only, and a
line break can be taken away only in a text on lines of its own. -/
def escape? (q : Quote) : List Char → Option (Piece × List Char)
  | 'u' :: rest => (digits? 16 4 0 rest).bind codePoint?
  | 'U' :: rest => (digits? 16 8 0 rest).bind codePoint?
  | 'x' :: rest => if q.isBytes then (digits? 16 2 0 rest).bind byte? else none
  | '\n' :: rest => if q.multiline then some (.joint, rest) else none
  | c :: rest =>
    if c = q.sign then some (.escaped c, rest)
    else if '0' ≤ c && c ≤ '7' then
      if q.isBytes then (digits? 8 3 0 (c :: rest)).bind byte? else none
    else (short? c).map fun c => (.escaped c, rest)
  | [] => none

/-! ### Texts on lines of their own -/

/-- Whether a piece is a blank within a line. -/
def isIndent : Piece → Bool
  | .plain c => Utf8.isBlank c && c ≠ '\n'
  | _ => false

/-- Takes the indentation away at the start of a line, which may also be empty. -/
def unindent? (indent pieces : List Piece) : Option (List Piece) :=
  if indent.isPrefixOf pieces then some (pieces.drop indent.length)
  else match pieces with
    | .plain '\n' :: _ => some pieces
    | .plain '\r' :: .plain '\n' :: _ => some (pieces.drop 1)
    | _ => none

/-- Takes the indentation away behind every line break. -/
def unindentLines? (indent : List Piece) : Nat → List Piece → Option (List Piece)
  | 0, _ => none
  | _ + 1, [] => some []
  | fuel + 1, piece :: rest =>
    match piece with
    | .plain '\r' => unindentLines? indent fuel rest
    | .plain '\n' => do
      return piece :: (← unindentLines? indent fuel (← unindent? indent rest))
    | .joint => do
      return piece :: (← unindentLines? indent fuel (← unindent? indent rest))
    | _ => do
      return piece :: (← unindentLines? indent fuel rest)

/-- The pieces of a text without the indentation and the line break before the closing quotes, which must
not be one that is taken away anyhow. A text on one line must not hold a carriage return. -/
def trim? (q : Quote) (pieces : List Piece) : Option (List Piece) :=
  if !q.multiline then if pieces.contains (.plain '\r') then none else some pieces
  else do
    let indent := (pieces.reverse.takeWhile isIndent).reverse
    let pieces ← unindent? indent pieces
    let pieces ← unindentLines? indent (pieces.length + 1) pieces
    match pieces.getLast? with
    | some .joint => none
    | some (.plain '\n') => some (pieces.dropLast.filter (· ≠ .joint))
    | _ => some (pieces.filter (· ≠ .joint))

end Quote

namespace Piece

/-- The characters of pieces without holes; halves of pairs have to come in pairs. -/
def text? : List Piece → Option (List Char)
  | [] => some []
  | .unit n :: rest =>
    if 0xd800 ≤ n && n < 0xdc00 then
      match rest with
      | .unit m :: rest =>
        if 0xdc00 ≤ m && m < 0xe000 then
          (text? rest).map (Char.ofNat ((n - 0xd800) * 0x400 + (m - 0xdc00) + 0x10000) :: ·)
        else none
      | _ => none
    else if 0xdc00 ≤ n && n < 0xe000 then none
    else (text? rest).map (Char.ofNat n :: ·)
  | .plain c :: rest => (text? rest).map (c :: ·)
  | .escaped c :: rest => (text? rest).map (c :: ·)
  | _ => none

/-- The bytes of pieces without holes. -/
def bytes? : List Piece → Option Bytes
  | [] => some []
  | .byte b :: rest => (bytes? rest).map (b :: ·)
  | piece :: rest => do return utf8 (String.ofList (← text? [piece])) ++ (← bytes? rest)

/-- Cuts pieces at their holes. -/
def cut : List Piece → List (List Piece)
  | [] => [[]]
  | .hole _ :: rest => [] :: cut rest
  | piece :: rest =>
    match cut rest with
    | first :: others => (piece :: first) :: others
    | [] => [[piece]]

end Piece

end TapeMachine.Config
