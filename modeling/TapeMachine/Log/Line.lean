/-
Log lines: a level, a message and attributes as `key=value` pairs.

A key or value is quoted if it is empty or holds a blank, a quote, an equals sign or a character that
does not print.

* `Log.Level.name` writes a level, with its distance from the named level below it;
* `Log.pairs` reads a flat list of keys and values;
* `Log.Entry.line` writes an entry.
-/
import TapeMachine.Text.Quoted

namespace TapeMachine.Log

/-! ### Levels -/

/-- The level of an entry. -/
abbrev Level := Int

namespace Level

/-- The level of details. -/
def debug : Level := -4

/-- The level of news. -/
def info : Level := 0

/-- The level of warnings. -/
def warn : Level := 4

/-- The level of errors. -/
def error : Level := 8

/-- The name of a level: the named level below it and the distance from it. -/
def name (level : Level) : String :=
  let from_ (base : String) (start : Int) : String :=
    let d := level - start
    if d = 0 then base else base ++ (if 0 < d then "+" else "") ++ decimalInt d
  if level < info then from_ "DEBUG" debug
  else if level < warn then from_ "INFO" info
  else if level < error then from_ "WARN" warn
  else from_ "ERROR" error

end Level

/-! ### Values -/

/-- The value of an attribute. -/
inductive Value where
  | text (value : Bytes)
  | int (value : Int)
  | bool (value : Bool)
  | null
  | list (values : List Bytes)
deriving DecidableEq, Repr

/-- A value as text. -/
def Value.toBytes : Value → Bytes
  | text value => value
  | int value => utf8 (decimalInt value)
  | bool value => utf8 (if value then "true" else "false")
  | null => utf8 "<nil>"
  | list values => utf8 "[" ++ Bytes.joinWith [32] values ++ utf8 "]"

/-- A key and its value. -/
abbrev Attr := Bytes × Value

/-- Whether a character forces quotes. -/
def forcesQuotes : Rune → Bool
  | .stray _ => true
  | .char c =>
    if c.toNat < 0x80 then c.toNat < 0x20 || c = ' ' || c = '"' || c = '='
    else c = Utf8.replacement || Utf8.isBlank c || !isPrintable c

/-- Whether a key or value stands in quotes. -/
def needsQuotes (s : Bytes) : Bool :=
  s.isEmpty || (Utf8.runes s).any forcesQuotes

/-- A key or value, in quotes if it needs them. -/
def field (s : Bytes) : Bytes :=
  if needsQuotes s then Quoted.quote s else s

/-- A key under a group, in quotes if one of the two needs them. -/
def groupedKey (group key : Bytes) : Bytes :=
  let whole := group ++ 46 :: key
  if needsQuotes group || needsQuotes key then Quoted.quote whole else whole

/-- The key of a value that has none. -/
def missingKey : Bytes := utf8 "!BADKEY"

/-- Reads a flat list of keys and values: what is no text cannot be a key, nor can the last item. -/
def pairs : List Value → List Attr
  | [] => []
  | .text key :: value :: rest => (key, value) :: pairs rest
  | [.text value] => [(missingKey, .text value)]
  | value :: rest => (missingKey, value) :: pairs rest

/-! ### Lines -/

/-- What is logged: attributes that the logger adds, and those of the entry under an optional group. -/
structure Entry where
  level : Level
  message : Bytes
  preset : List Attr := []
  group : Bytes := []
  attrs : List Attr := []

/-- Whether an attribute says nothing: it has neither a key nor a value, and is left out. -/
def Attr.isVoid (attr : Attr) : Bool :=
  attr.1.isEmpty && attr.2 = .null

/-- Attributes under a group, each behind a space; the empty group is none. -/
def attrsText (group : Bytes) (attrs : List Attr) : Bytes :=
  (attrs.filter (!Attr.isVoid ·)).flatMap fun (key, value) =>
    32 :: (if group.isEmpty then field key else groupedKey group key) ++ 61 :: field value.toBytes

/-- The line of an entry. -/
def Entry.line (e : Entry) : Bytes :=
  utf8 "level=" ++ field (utf8 (Level.name e.level)) ++ utf8 " msg=" ++ field e.message ++
    attrsText [] e.preset ++ attrsText e.group e.attrs

end TapeMachine.Log
