/-
Values written as texts, in the format that web pages read.

* `Json` is a value;
* `Json.parse?` reads a text that is a value and nothing else;
* `Json.member?` is what an object holds under a name.

Numbers are whole, and no spaces stand between the parts of a text.
-/
import TapeMachine.Text.Bytes

namespace TapeMachine

/-- A value. -/
inductive Json where
  | null
  | number (n : Int)
  | text (s : String)
  | array (items : List Json)
  | object (members : List (String × Json))

namespace Json

/-- Reads a part of a text from its start, and returns what is behind it. -/
abbrev Reader (α : Type) := List Char → Option (α × List Char)

/-! ### Numbers -/

/-- Reads a number without a sign. A zero in front of other digits is no number. -/
def natural? : Reader Nat := fun s =>
  let digits := s.takeWhile Char.isDigit
  if digits = [] ∨ (digits.head? = some '0' ∧ 1 < digits.length) then none
  else some (Nat.ofDigitChars 10 digits 0, s.dropWhile Char.isDigit)

/-- Reads a number. -/
def integer? : Reader Int
  | '-' :: rest => (natural? rest).map fun (n, rest) => (-n, rest)
  | s => (natural? s).map fun (n, rest) => (n, rest)

/-! ### Texts -/

/-- The character of an escape with one letter. -/
def shortEscape? (letter : Char) : Option Char :=
  match letter with
  | '"' => some '"'
  | '\\' => some '\\'
  | '/' => some '/'
  | 'b' => some (Char.ofNat 8)
  | 'f' => some (Char.ofNat 12)
  | 'n' => some '\n'
  | 'r' => some '\r'
  | 't' => some '\t'
  | _ => none

/-- The value of a hexadecimal digit. -/
def hexValue? (c : Char) : Option Nat :=
  if c.isDigit then some (c.toNat - 48)
  else if 'a' ≤ c ∧ c ≤ 'f' then some (c.toNat - 87)
  else if 'A' ≤ c ∧ c ≤ 'F' then some (c.toNat - 55)
  else none

/-- The character of four hexadecimal digits. Half of a pair is none. -/
def hexEscape? (digits : List Char) : Option Char := do
  let values ← digits.mapM hexValue?
  let n := values.foldl (fun n d => n * 16 + d) 0
  if n.isValidChar then some (Char.ofNat n) else none

/-- Reads the characters of a text behind its first quote, up to the last one. -/
def chars? : Reader (List Char)
  | [] => none
  | '"' :: rest => some ([], rest)
  | '\\' :: 'u' :: a :: b :: c :: d :: rest =>
    match hexEscape? [a, b, c, d] with
    | none => none
    | some e => (chars? rest).map fun (s, rest) => (e :: s, rest)
  | '\\' :: letter :: rest =>
    match shortEscape? letter with
    | none => none
    | some e => (chars? rest).map fun (s, rest) => (e :: s, rest)
  | c :: rest =>
    if c = '\\' ∨ c.toNat < 0x20 then none else (chars? rest).map fun (s, rest) => (c :: s, rest)

/-! ### Values -/

/-- Reads at most `fuel` items with commas between them, up to a closing sign. -/
def items? {α : Type} (close : Char) (item? : Reader α) : Nat → Reader (List α)
  | 0, _ => none
  | fuel + 1, s =>
    match item? s with
    | none | some (_, []) => none
    | some (a, c :: rest) =>
      if c = ',' then (items? close item? fuel rest).map fun (as, rest) => (a :: as, rest)
      else if c = close then some ([a], rest)
      else none

/-- Reads items up to a closing sign, or none. -/
def list? {α : Type} (close : Char) (item? : Reader α) : Reader (List α) := fun s =>
  if s.head? = some close then some ([], s.drop 1) else items? close item? s.length s

/-- Reads a name and the value behind it. -/
def namedValue? (value? : Reader Json) : Reader (String × Json)
  | '"' :: rest =>
    match chars? rest with
    | some (name, ':' :: rest) => (value? rest).map fun (value, rest) => ((String.ofList name, value), rest)
    | _ => none
  | _ => none

/-- Reads a value in which at most `depth` values stand inside each other. -/
def value? : Nat → Reader Json
  | _ + 1, 'n' :: 'u' :: 'l' :: 'l' :: rest => some (null, rest)
  | _ + 1, '"' :: rest => (chars? rest).map fun (s, rest) => (text (String.ofList s), rest)
  | depth + 1, '[' :: rest => (list? ']' (value? depth) rest).map fun (items, rest) => (array items, rest)
  | depth + 1, '\x7b' :: rest =>
    (list? '\x7d' (namedValue? (value? depth)) rest).map fun (members, rest) => (object members, rest)
  | _ + 1, s => (integer? s).map fun (n, rest) => (number n, rest)
  | 0, _ => none

/-- Reads a text that is a value and nothing else. -/
def parse? (s : String) : Option Json :=
  match value? (s.length + 1) s.toList with
  | some (j, []) => some j
  | _ => none

/-- What an object holds under a name; the last member with the name counts. -/
def member? (name : String) : Json → Option Json
  | object members => members.reverse.lookup name
  | null | number _ | text _ | array _ => none

end Json

end TapeMachine
