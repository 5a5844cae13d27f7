/-
YAML scalars: how a text is written so that it reads back as a text.

The texts are printable ASCII with tabs and line feeds. A text of several lines is a literal block;
one that would read as a null, a truth value, a number or a timestamp is quoted twice; the rest is
plain where the characters allow it and quoted once where they do not.

* `Yaml.readsAsOther` says which texts would not be read as texts;
* `Yaml.Scalar.style` chooses the form of a text;
* `Yaml.Scalar.render` writes it.
-/
import TapeMachine.Number.Binary
import TapeMachine.Yaml.Timestamp

namespace TapeMachine.Yaml

open Number (isDigit parseSigned parseSignedLiteral parseUnsigned parseUnsignedLiteral parseFloat
  BinaryFormat)

/-! ### What a plain scalar would be taken for -/

/-- The words for null, truth values and special numbers. -/
def reservedWords : List String :=
  ["true", "True", "TRUE", "false", "False", "FALSE", "", "~", "null", "Null", "NULL",
    ".nan", ".NaN", ".NAN", ".inf", ".Inf", ".INF", "+.inf", "+.Inf", "+.INF",
    "-.inf", "-.Inf", "-.INF"]

/-- The words for truth values in the older version of the language. -/
def oldTruthWords : List String :=
  ["y", "Y", "yes", "Yes", "YES", "on", "On", "ON", "n", "N", "no", "No", "NO", "off", "Off", "OFF"]

/-- Drops a sign. -/
def dropSign : Bytes → Bytes
  | 43 :: rest => rest
  | 45 :: rest => rest
  | s => s

/-- Whether a text is a sign and digits, with a fraction and an exponent or without. -/
def isFloatShape (s : Bytes) : Bool :=
  let (whole, rest) := (dropSign s).span isDigit
  let (isNumber, rest) := match rest with
    | 46 :: tail =>
      let (fraction, rest) := tail.span isDigit
      (!whole.isEmpty || !fraction.isEmpty, rest)
    | _ => (!whole.isEmpty, rest)
  isNumber && match rest with
    | [] => true
    | mark :: tail =>
      let digits := dropSign tail
      (mark = 101 || mark = 69) && !digits.isEmpty && digits.all isDigit

/-- Whether a text is an integer of 64 bits in a base that its first characters name. -/
def isInteger (s : Bytes) : Bool :=
  let reads (base : Nat) (digits : Bytes) : Bool :=
    (parseSigned base 64 digits).isOk || (parseUnsigned base 64 digits).isOk
  (parseSignedLiteral 64 s).isOk || (parseUnsignedLiteral 64 s).isOk ||
    match s with
    | 48 :: 98 :: digits => reads 2 digits
    | 48 :: 111 :: digits => reads 8 digits
    | 45 :: 48 :: 98 :: digits => (parseSigned 2 64 (45 :: digits)).isOk
    | 45 :: 48 :: 111 :: digits => (parseSigned 8 64 (45 :: digits)).isOk
    | _ => false

/-- Whether a text is a number of the 64-bit format. -/
def isFloat (s : Bytes) : Bool :=
  (parseFloat .double s).isOk

/-- Whether a text is a number written with colons in base sixty. -/
def isBaseSixty (s : Bytes) : Bool :=
  let (whole, rest) := (dropSign s).span fun c => isDigit c || c = 95
  let (body, fraction) := rest.span (· ≠ 46)
  let groups := (Bytes.split 58 body).drop 1
  let isGroup : Bytes → Bool
    | [a] => isDigit a
    | [a, b] => 48 ≤ a && a ≤ 53 && isDigit b
    | _ => false
  whole.head?.any isDigit && body.head? = some 58 && groups.all isGroup &&
    (fraction.drop 1).all fun c => isDigit c || c = 95

/-- Whether a text would be read as something else than a text if it stood plain. -/
def readsAsOther (s : Bytes) : Bool :=
  (reservedWords ++ oldTruthWords).any (utf8 · = s) || isBaseSixty s ||
    match s with
    | [] => true
    | c :: _ =>
      if c = 46 then isFloat s
      else if isDigit c || c = 43 || c = 45 then
        let plain := s.filter (· ≠ 95)
        isTimestamp s || isInteger plain || isFloatShape plain && isFloat plain
      else false

/-! ### Which forms the characters allow -/

namespace Scalar

/-- The forms of a scalar. -/
inductive Style where
  | plain
  | singleQuoted
  | doubleQuoted
  | literal
deriving DecidableEq, Repr

/-- Whether `a` directly before `b` occurs. -/
def hasPair (a b : UInt8) : Bytes → Bool
  | x :: y :: rest => x = a && y = b || hasPair a b (y :: rest)
  | _ => false

/-- Whether a blank or the end follows. -/
def blankNext : Bytes → Bool
  | [] => true
  | c :: _ => c = 32 || c = 9

/-- Characters that begin something else than a plain scalar. -/
def leadingIndicators : Bytes :=
  utf8 "#,[]\x7b\x7d&*!|>'\"%@\x60"

/-- Whether the first character of a text begins something else. -/
def startsAsOther (s : Bytes) : Bool :=
  s.take 3 = utf8 "---" || s.take 3 = utf8 "..." ||
    match s with
    | [] => false
    | c :: rest => leadingIndicators.contains c || (c = 63 || c = 58 || c = 45) && blankNext rest

/-- Whether a later character ends a plain scalar: a colon before a blank, a hash behind one. -/
def breaksOff : Bytes → Bool
  | x :: y :: rest =>
    y = 58 && blankNext rest || y = 35 && (x = 32 || x = 9 || x = 10) || breaksOff (y :: rest)
  | _ => false

/-- Whether a text of one line may stand plain. -/
def plainAllowed (s : Bytes) : Bool :=
  !(s.head? = some 32 || s.getLast? = some 32 || s.contains 9 || startsAsOther s || breaksOff s)

/-- Whether a text of several lines may be a literal block: no line ends with a space, nor does the
text. -/
def literalAllowed (s : Bytes) : Bool :=
  !(s.getLast? = some 32 || hasPair 32 10 s)

/-- The form of a text. -/
def style (s : Bytes) : Style :=
  if s.contains 10 then
    if literalAllowed s then .literal else .doubleQuoted
  else if readsAsOther s then .doubleQuoted
  else if plainAllowed s then .plain
  else if s.contains 9 then .doubleQuoted
  else .singleQuoted

/-! ### Writing -/

/-- A character inside double quotes. -/
def escaped (c : UInt8) : Bytes :=
  if c = 34 then [92, 34]
  else if c = 92 then [92, 92]
  else if c = 9 then [92, 116]
  else if c = 10 then [92, 110]
  else [c]

/-- The marks behind the bar of a literal block: the indentation if the text begins with a space or
line feed, and what becomes of the line feeds at the end. -/
def blockMarks (s : Bytes) : Bytes :=
  let hint := match s with
    | c :: _ => if c = 32 ∨ c = 10 then [50] else []
    | [] => []
  let keep := match s.reverse with
    | 10 :: 10 :: _ => [43]
    | [10] => [43]
    | 10 :: _ => []
    | _ => [45]
  hint ++ keep

/-- The lines of a literal block, each with its indentation unless it is empty. A line feed at the
very start of the text ends the line of the marks. -/
def blockLines (indent : Nat) (s : Bytes) : Bytes :=
  let indented (line : Bytes) : Bytes :=
    if line.isEmpty then [] else List.replicate indent 32 ++ line
  let body := Bytes.joinWith [10] ((Bytes.lines s).map indented)
  if s.head? = some 10 then body else 10 :: body

/-- Writes a text, with the lines of a block indented by `indent`, and ends the line. -/
def render (indent : Nat) (s : Bytes) : Bytes :=
  match style s with
  | .plain => s ++ [10]
  | .singleQuoted => [39] ++ s.flatMap (fun c => if c = 39 then [39, 39] else [c]) ++ [39, 10]
  | .doubleQuoted => [34] ++ s.flatMap escaped ++ [34, 10]
  | .literal =>
    [124] ++ blockMarks s ++ blockLines indent s ++ if s.getLast? = some 10 then [] else [10]

end Scalar

end TapeMachine.Yaml
