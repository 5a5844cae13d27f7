/-
Arguments of command words.

An argument is one word, read by its type. An optional argument may be left out at the end of the
command line and is then a reference to the zero value of its type.

* `ArgType` and `ArgValue` are the types and values;
* `ArgType.parse` reads the next word;
* `takeArguments` reads the words for a list of types.
-/
import TapeMachine.Number.Binary
import TapeMachine.Text.Quoted
import TapeMachine.Text.Truth

namespace TapeMachine.CommandLine

open Number (BinaryFormat)

/-- The type of an argument. -/
inductive ArgType where
  | bool
  | text
  | int (bits : Nat)
  | unsigned (bits : Nat)
  | float (format : BinaryFormat)
  /-- A type that no word is read as. -/
  | unsupported (name : String)
  | optional (type : ArgType)
deriving DecidableEq, Repr

/-- The value of an argument. -/
inductive ArgValue where
  | bool (value : Bool)
  | text (value : Bytes)
  | int (value : Int)
  | float (format : BinaryFormat) (bits : Nat)
  /-- The zero value of an unsupported type. -/
  | empty
  /-- The zero value of an optional type. -/
  | absent
  | reference (value : ArgValue)
deriving DecidableEq, Repr, Inhabited

/-- The value of a variable that was never set. -/
def ArgType.zero : ArgType → ArgValue
  | bool => .bool false
  | text => .text []
  | int _ => .int 0
  | unsigned _ => .int 0
  | float f => .float f 0
  | unsupported _ => .empty
  | optional _ => .absent

/-- Why a word is not read as an argument. -/
inductive ArgError where
  | missing
  | notInt (word : Bytes) (cause : Number.Error)
  | notUnsigned (word : Bytes) (cause : Number.Error)
  | notFloat (word : Bytes) (cause : Number.Error)
  | unsupported (type : String)
deriving DecidableEq, Repr

namespace ArgError

/-- The message for a word that is no number of a kind. -/
def conversion (word : Bytes) (kind reader : String) (cause : Number.Error) : Bytes :=
  utf8 "convert " ++ word ++ utf8 (" to " ++ kind ++ ": strconv." ++ reader ++ ": parsing ") ++
    Quoted.quote word ++ utf8 (": " ++ cause.message)

/-- The message of an argument error. -/
def message : ArgError → Bytes
  | missing => utf8 "expecting argument, got nothing"
  | notInt word cause => conversion word "int" "ParseInt" cause
  | notUnsigned word cause => conversion word "unsigned int" "ParseUint" cause
  | notFloat word cause => conversion word "float" "ParseFloat" cause
  | unsupported type => utf8 ("unsupported type: " ++ type)

end ArgError

namespace ArgType

/-- Reads one word. -/
def parseWord (word : Bytes) : ArgType → Except ArgError ArgValue
  | bool => .ok (.bool (Truth.isTrue word))
  | text => .ok (.text word)
  | int bits =>
    match Number.parseSigned 10 bits word with
    | .ok n => .ok (.int n)
    | .error cause => .error (.notInt word cause)
  | unsigned bits =>
    match Number.parseUnsigned 10 bits word with
    | .ok n => .ok (.int n)
    | .error cause => .error (.notUnsigned word cause)
  | float f =>
    match Number.parseFloat f word with
    | .ok bits => .ok (.float f bits)
    | .error cause => .error (.notFloat word cause)
  | unsupported name => .error (.unsupported name)
  | optional type =>
    match parseWord word type with
    | .ok v => .ok (.reference v)
    | .error e => .error e

/-- Reads the next word, if there is one. -/
def parse (type : ArgType) (words : List Bytes) : Except ArgError ArgValue :=
  match words, type with
  | [], optional type => .ok (.reference type.zero)
  | [], _ => .error .missing
  | word :: _, type => parseWord word type

end ArgType

/-- Reads one word for each type and returns the values and the words left over. -/
def takeArguments : List ArgType → List Bytes → Except ArgError (List ArgValue × List Bytes)
  | [], words => .ok ([], words)
  | type :: types, words =>
    match type.parse words with
    | .error e => .error e
    | .ok value =>
      match takeArguments types (words.drop 1) with
      | .error e => .error e
      | .ok (values, rest) => .ok (value :: values, rest)

theorem length_of_takeArguments {types : List ArgType} {words rest : List Bytes}
    {values : List ArgValue} (h : takeArguments types words = .ok (values, rest)) :
    rest.length ≤ words.length := by
  induction types generalizing words values with
  | nil => simp_all [takeArguments]
  | cons type types ih =>
    rw [takeArguments] at h
    split at h
    · simp at h
    · split at h
      · simp at h
      · next hrest =>
        simp only [Except.ok.injEq, Prod.mk.injEq] at h
        obtain ⟨_, rfl⟩ := h
        have := ih hrest
        simp only [List.length_drop] at this
        omega

end TapeMachine.CommandLine
