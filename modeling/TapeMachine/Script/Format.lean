/-
Texts with places for values.

* `Format.interpolate` fills the places of a text that are marked by percent signs;
* `Format.fields` fills the places that are marked by braces.
-/
import TapeMachine.Script.Compare

namespace TapeMachine.Script

/-- The whole number that a number is, cut off toward zero. -/
def Value.toInt : Value → Except String Int
  | .int i => .ok i
  | .float bits =>
    match Number.Double.ratio? bits with
    | some r => .ok r.truncate
    | Option.none =>
      .error (if Number.Double.isNaN bits then "cannot convert float NaN to integer"
        else "cannot convert float infinity to integer")
  | v => .error ("cannot convert " ++ v.typeName ++ " to int")

/-- A whole number of 32 bits. -/
def Value.toInt32 : Value → Except String Int
  | .int i =>
    if -(Nat.pow 2 31 : Int) ≤ i ∧ i < Nat.pow 2 31 then .ok i
    else .error (decimalInt i ++ " out of range")
  | v => .error ("got " ++ v.typeName ++ ", want int")

namespace Format

/-- A byte as a character. -/
def charText (c : UInt8) : String :=
  String.ofList [Char.ofNat c.toNat]

/-- A whole number in a base. -/
def inBase (base : Nat) (i : Int) : String :=
  (if i < 0 then "-" else "") ++ String.ofList (Nat.toDigits base i.natAbs)

/-- The floating point number that a number is. -/
def toFloat? : Value → Option Nat
  | .int i => some ((Number.Double.ofInt? i).getD (Number.Double.infinity (i < 0)))
  | .float bits => some bits
  | _ => none

/-- A floating point number by a letter. -/
def floatText (letter : UInt8) (bits : Nat) : String :=
  let finite := (Number.Double.ratio? bits).isSome
  match Char.ofNat letter.toNat with
  | 'g' => Number.Double.text bits
  | 'G' => if finite then (Number.Double.text bits).toUpper else Number.Double.text bits
  | 'e' => Number.Double.scientificText bits
  | 'E' => if finite then (Number.Double.scientificText bits).toUpper else Number.Double.scientificText bits
  | 'f' => Number.Double.fixedText bits
  | _ => if finite then "%F" else Number.Double.specialText bits

/-- The character that a value stands for. -/
def character (s : Store) (v : Value) : Except Bytes Bytes :=
  match v with
  | .int i =>
    if 0 ≤ i ∧ i ≤ 0x10FFFF then
      let n := i.toNat
      .ok (Utf8.encodeChar (if 0xD800 ≤ n ∧ n < 0xE000 then Utf8.replacement else Char.ofNat n))
    else .error (utf8 "%c format requires a valid Unicode code point, got " ++ s.write v)
  | .text t =>
    match Utf8.next t with
    | some (r, []) => .ok (Utf8.encodeChar (Utf8.Rune.toChar r))
    | _ => .error (utf8 "%c format requires a single-character string")
  | v => .error (utf8 ("%c format requires int or single-character string, not " ++ v.typeName))

/-- A value by a letter. -/
def convert (s : Store) (letter : UInt8) (v : Value) : Except Bytes Bytes :=
  match Char.ofNat letter.toNat with
  | 's' => .ok (s.print v)
  | 'r' => .ok (s.write v)
  | 'd' | 'i' | 'o' | 'x' | 'X' =>
    match v.toInt with
    | .error e => .error (utf8 ("%" ++ charText letter ++ " format requires integer: " ++ e))
    | .ok i =>
      .ok <| utf8 <| match Char.ofNat letter.toNat with
        | 'o' => inBase 8 i
        | 'x' => inBase 16 i
        | 'X' => (inBase 16 i).toUpper
        | _ => decimalInt i
  | 'e' | 'f' | 'g' | 'E' | 'F' | 'G' =>
    match toFloat? v with
    | some bits => .ok (utf8 (floatText letter bits))
    | none => .error (utf8 ("%" ++ charText letter ++ " format requires float, not " ++ v.typeName))
  | 'c' => character s v
  | '%' => .ok [37]
  | _ => .error (utf8 ("unknown conversion %" ++ charText letter))

/-- The value for the place at the start of a text, behind its percent sign, and the text behind its name.
`used` counts the places before it. -/
def argument (s : Store) (v : Value) (used : Nat) (text : Bytes) : Except Bytes (Value × Bytes) :=
  match text with
  | 40 :: rest =>
    let name := rest.takeWhile (· ≠ 41)
    if name.length = rest.length then .error (utf8 "incomplete format key")
    else match v with
      | .dict a =>
        match (Value.text name).lookup? (s.dictEntries a) with
        | some value => .ok (value, rest.drop (name.length + 1))
        | none => .error (utf8 "key not found: " ++ name)
      | _ => .error (utf8 "format requires a mapping")
  | _ =>
    let values := match v with
      | .tuple items => items
      | v => [v]
    match values[used]? with
    | some value => .ok (value, text)
    | none => .error (utf8 "not enough arguments for format string")

/-- Fills the places of a text, at most `fuel` of them, after `used` others. -/
def interpolateFrom (s : Store) (v : Value) : Nat → Nat → Bytes → Except Bytes (Nat × Bytes)
  | 0, used, text => .ok (used, text)
  | fuel + 1, used, text => do
    let (plain, rest) := text.span (· ≠ 37)
    match rest with
    | [] => return (used, plain)
    | _ :: 37 :: rest =>
      let (used, filled) ← interpolateFrom s v fuel used rest
      return (used, plain ++ 37 :: filled)
    | _ :: rest =>
      let (value, rest) ← argument s v used rest
      match rest with
      | [] => throw (utf8 "incomplete format")
      | letter :: rest =>
        let part ← convert s letter value
        let (used, filled) ← interpolateFrom s v fuel (used + 1) rest
        return (used, plain ++ part ++ filled)

/-- Fills the places of a text with a value, or with the items of a tuple. -/
def interpolate (s : Store) (text : Bytes) (v : Value) : Except Bytes Bytes := do
  let wanted := match v with
    | .tuple items => items.length
    | _ => 1
  let (used, filled) ← interpolateFrom s v (text.length + 1) 0 text
  if used < wanted then throw (utf8 "too many arguments for format string")
  return filled

/-! ### Fields in braces -/

/-- How places without a name are numbered. -/
inductive Numbering where
  | unknown
  | automatic (next : Nat)
  | manual
deriving DecidableEq, Repr

/-- A place: its name, how to write the value, and further wishes. -/
structure Field where
  name : Bytes
  conversion : Bytes
  wishes : Bytes
deriving DecidableEq, Repr

/-- Splits a text at the first of a sign. -/
def cut (sign : UInt8) (s : Bytes) : Bytes × Option Bytes :=
  let (before, rest) := s.span (· ≠ sign)
  (before, if rest.isEmpty then none else some (rest.drop 1))

/-- Reads what stands between braces. -/
def Field.ofText (text : Bytes) : Field :=
  match cut 33 text with
  | (name, some rest) =>
    let (conversion, wishes) := cut 58 rest
    ⟨name, conversion, wishes.getD []⟩
  | (_, none) =>
    let (name, wishes) := cut 58 text
    ⟨name, [115], wishes.getD []⟩

/-- A number of decimal digits only. -/
def number? (s : Bytes) : Option Nat :=
  if s.all fun c => 48 ≤ c && c ≤ 57 then
    let n := s.foldl (fun n c => n * 10 + (c.toNat - 48)) 0
    if n < Nat.pow 2 63 then some n else none
  else none

/-- The value for a field, and how to number on. -/
def fieldValue (positional : List Value) (named : List (Bytes × Value)) (numbering : Numbering)
    (name : Bytes) : Except Bytes (Value × Numbering) :=
  let nth (i : Nat) : Except Bytes Value :=
    match positional[i]? with
    | some v => .ok v
    | none => .error (utf8 "format: tuple index out of range")
  if name.isEmpty then
    match numbering with
    | .manual => .error (utf8
        "format: cannot switch from manual field specification to automatic field numbering")
    | .unknown => return (← nth 0, .automatic 1)
    | .automatic i => return (← nth i, .automatic (i + 1))
  else match number? name with
    | some i =>
      match numbering with
      | .automatic _ => .error (utf8
          "format: cannot switch from automatic field numbering to manual field specification")
      | _ => return (← nth i, .manual)
    | none =>
      match named.lookup name with
      | some v => .ok (v, numbering)
      | none =>
        .error <|
          if name.contains 46 then
            utf8 "format: attribute syntax x.y is not supported in replacement fields: " ++ name
          else if name.contains 91 then
            utf8 "format: element syntax a[i] is not supported in replacement fields: " ++ name
          else if name.contains 123 then utf8 "format: nested replacement fields not supported"
          else utf8 "format: keyword " ++ name ++ utf8 " not found"

/-- A value in a field. -/
def fieldText (s : Store) (f : Field) (v : Value) : Except Bytes Bytes :=
  if !f.wishes.isEmpty then
    .error (utf8 "format spec features not supported in replacement fields: " ++ f.wishes)
  else if f.conversion = [115] then .ok (s.print v)
  else if f.conversion = [114] then .ok (s.write v)
  else .error (utf8 "format: unknown conversion " ++ Quoted.quote f.conversion)

/-- A text outside of fields, in which closing braces come in pairs. -/
def plainText : Bytes → Except Bytes Bytes
  | [] => .ok []
  | 125 :: 125 :: rest => return 125 :: (← plainText rest)
  | c :: rest => if c = 125 then .error (utf8 "format: single '\x7d' in format") else return c :: (← plainText rest)

/-- Fills the fields of a text, at most `fuel` of them. -/
def fieldsFrom (s : Store) (positional : List Value) (named : List (Bytes × Value)) :
    Nat → Numbering → Bytes → Except Bytes Bytes
  | 0, _, _ => .ok []
  | fuel + 1, numbering, text => do
    let (plain, rest) := text.span (· ≠ 123)
    let plain ← plainText plain
    match rest with
    | [] => return plain
    | _ :: 123 :: rest => return plain ++ 123 :: (← fieldsFrom s positional named fuel numbering rest)
    | _ :: rest =>
      match cut 125 rest with
      | (_, none) => throw (utf8 "format: unmatched '\x7b' in format")
      | (field, some rest) =>
        let field := Field.ofText field
        let (v, numbering) ← fieldValue positional named numbering field.name
        let part ← fieldText s field v
        return plain ++ part ++ (← fieldsFrom s positional named fuel numbering rest)

/-- Fills the fields of a text. -/
def fields (s : Store) (text : Bytes) (positional : List Value) (named : List (Bytes × Value)) :
    Except Bytes Bytes :=
  fieldsFrom s positional named (text.length + 1) .unknown text

end Format

end TapeMachine.Script
