/-
The content of string literals.

A literal is text or bytes, and raw if backslashes stand for themselves. In text an escape stands for a
character, so numeric escapes of a single byte go only as far as ASCII; in bytes they stand for any byte.

* `Literal.decode` gives the bytes that the characters between the quotes stand for.
-/
import TapeMachine.Text.Quoted

namespace TapeMachine.Script.Literal

/-- How a literal is marked before its opening quote. -/
structure Style where
  raw : Bool := false
  bytes : Bool := false
deriving DecidableEq, Repr

/-- The byte that a letter behind a backslash stands for. -/
def simpleEscape? (c : UInt8) : Option UInt8 :=
  match Char.ofNat c.toNat with
  | 'a' => some 7
  | 'b' => some 8
  | 'f' => some 12
  | 'n' => some 10
  | 'r' => some 13
  | 't' => some 9
  | 'v' => some 11
  | '\\' => some 92
  | '\x27' => some 39
  | '"' => some 34
  | _ => none

/-- The value of hexadecimal digits. -/
def hexValue? (digits : Bytes) : Option Nat :=
  digits.foldl (fun n c => do
    let n ← n
    let d := if 48 ≤ c ∧ c ≤ 57 then c.toNat - 48
      else if 97 ≤ c ∧ c ≤ 102 then c.toNat - 87
      else if 65 ≤ c ∧ c ≤ 70 then c.toNat - 55
      else 16
    if d < 16 then some (n * 16 + d) else none) (some 0)

/-- A number in a base with at least `width` digits, in capitals. -/
def padded (base width n : Nat) : String :=
  let digits := (Nat.toDigits base n).map Char.toUpper
  String.ofList (List.replicate (width - digits.length) '0' ++ digits)

/-- The message for an escape of a single byte that stands for no ASCII character. -/
def notAscii (kind : String) (escape : Bytes) (n : Nat) : Bytes :=
  utf8 ("non-ASCII " ++ kind ++ " escape ") ++ escape ++
    utf8 (" (use \\u" ++ padded 16 4 n ++ " for the UTF-8 encoding of U+" ++ padded 16 4 n ++ ")")

/-- An octal escape of up to three digits: the bytes it stands for and what follows. -/
def octalEscape (style : Style) (s : Bytes) : Except Bytes (Bytes × Bytes) :=
  let digits := (s.take 3).takeWhile fun c => 48 ≤ c && c ≤ 55
  let n := digits.foldl (fun n c => n * 8 + (c.toNat - 48)) 0
  if !style.bytes && 127 < n then .error (notAscii "octal" (utf8 ("\\" ++ padded 8 1 n)) n)
  else if 256 ≤ n then .error (utf8 ("invalid escape sequence \\" ++ padded 8 3 n))
  else .ok ([n.toUInt8], s.drop digits.length)

/-- A hexadecimal escape of two digits behind its letter. `escape` is the text from the backslash on. -/
def hexEscape (style : Style) (escape : Bytes) : Except Bytes (Bytes × Bytes) :=
  if escape.length < 4 then .error (utf8 "truncated escape sequence " ++ escape)
  else match hexValue? ((escape.take 4).drop 2) with
    | none => .error (utf8 "invalid escape sequence " ++ escape.take 4)
    | some n =>
      if !style.bytes && 127 < n then .error (notAscii "hex" (escape.take 4) n)
      else .ok ([n.toUInt8], escape.drop 4)

/-- The escape of a character with `digits` hexadecimal digits. -/
def charEscape (digits : Nat) (escape : Bytes) : Except Bytes (Bytes × Bytes) :=
  let size := digits + 2
  if escape.length < size then .error (utf8 "truncated escape sequence " ++ escape)
  else match hexValue? ((escape.take size).drop 2) with
    | none => .error (utf8 "invalid escape sequence " ++ escape.take size)
    | some n =>
      if 0x10FFFF < n then
        .error (utf8 "code point out of range: " ++ escape.take size ++
          utf8 (" (max \\U" ++ String.ofList (Quoted.hexPadded 8 n) ++ ")"))
      else if 0xD800 ≤ n ∧ n < 0xE000 then
        .error (utf8 ("invalid Unicode code point U+" ++ padded 16 4 n))
      else .ok (Utf8.encodeChar (Char.ofNat n), escape.drop size)

/-- What the escape at the start of a text stands for, and what follows it. -/
def escape (style : Style) (s : Bytes) : Except Bytes (Bytes × Bytes) :=
  match s with
  | 92 :: c :: rest =>
    match simpleEscape? c with
    | some b => .ok ([b], rest)
    | none =>
      if c = 10 then .ok ([], rest)
      else if 48 ≤ c && c ≤ 55 then octalEscape style (c :: rest)
      else if c = 120 then hexEscape style s
      else if c = 117 then charEscape 4 s
      else if c = 85 then charEscape 8 s
      else .error (utf8 ("invalid escape sequence \\" ++ String.ofList [Char.ofNat c.toNat]))
  | _ => .error (utf8 "truncated escape sequence \\")

/-- Decodes at most `fuel` bytes and escapes. -/
def decodeFrom (style : Style) : Nat → Bytes → Except Bytes Bytes
  | 0, s => .ok s
  | _ + 1, [] => .ok []
  | fuel + 1, c :: rest =>
    if c = 92 then do
      let (b, rest) ← escape style (c :: rest)
      return b ++ (← decodeFrom style fuel rest)
    else return c :: (← decodeFrom style fuel rest)

/-- The bytes that the content of a literal stands for, or what is wrong with it. -/
def decode (style : Style) (content : Bytes) : Except Bytes Bytes :=
  if style.raw then .ok content else decodeFrom style content.length content

end TapeMachine.Script.Literal
