/-
Arguments of functions that are not written in a script.

* `Arguments.inOrder` takes arguments without names, and checks how many there are;
* `Arguments.byName` takes arguments for named parameters;
* `Arguments.text`, `Arguments.whole`, `Arguments.flag`, `Arguments.items` turn an argument into what a
  parameter wants.
-/
import TapeMachine.Script.Operator
import TapeMachine.Text.Spelling

namespace TapeMachine.Script

/-- The arguments of a call. -/
structure Arguments where
  positional : List Value := []
  named : List (Bytes × Value) := []
deriving Repr

namespace Arguments

/-- Arguments without names, at least `least` and at most `most`. -/
def inOrder (function : String) (least most : Nat) (a : Arguments) : Work (List Value) := do
  let n := a.positional.length
  let wrongCount (bound : String) (count : Nat) : Work (List Value) :=
    complain (function ++ ": got " ++ decimal n ++ " arguments, want " ++
      (if least < most then bound else "") ++ decimal count)
  if !a.named.isEmpty then complain (function ++ ": unexpected keyword arguments")
  if n < least then wrongCount "at least " least
  else if most < n then wrongCount "at most " most
  else return a.positional

/-- Refuses named arguments, and any number of others than one. -/
def single (function wording : String) (a : Arguments) : Work Value := do
  if !a.named.isEmpty then complain (function ++ " does not accept keyword arguments")
  match a.positional with
  | [v] => return v
  | vs => complain (function ++ ": got " ++ decimal vs.length ++ " arguments, want " ++ wording)

/-! ### What parameters want -/

/-- A text. -/
def text : Value → Work Bytes
  | .text s => return s
  | v => complain ("got " ++ v.typeName ++ ", want string")

/-- A truth value. -/
def flag : Value → Work Bool
  | .bool b => return b
  | v => complain ("got " ++ v.typeName ++ ", want bool")

/-- A whole number of 64 bits. -/
def whole : Value → Work Int
  | .int i =>
    if -(Nat.pow 2 63 : Int) ≤ i ∧ i < Nat.pow 2 63 then return i
    else complain (decimalInt i ++ " out of range (want value in signed 64-bit range)")
  | v => complain ("got " ++ v.typeName ++ ", want int")

/-- The items of a value that can be gone through. -/
def items (v : Value) : Work (List Value) := do
  match (← get).items? v with
  | some items => return items
  | none => complain ("got " ++ v.typeName ++ ", want iterable")

/-- A function. -/
def callable : Value → Work Value
  | .function a => return .function a
  | .builtin f => return .builtin f
  | .method i v name => return .method i v name
  | .host i => return .host i
  | v => complain ("got " ++ v.typeName ++ ", want callable")

/-- Puts words before the message of a failure. -/
def blaming {α : Type} (words : String) (work : Work α) : Work α := fun s =>
  match work s with
  | .ok a s => .ok a s
  | .error e s => .error (utf8 words ++ e) s

/-- What the parameter with a number wants of an argument. -/
def nth {α : Type} (function : String) (i : Nat) (want : Value → Work α) (v : Value) : Work α :=
  blaming (function ++ ": for parameter " ++ decimal i ++ ": ") (want v)

/-- What the parameter with a number wants of an argument that may be left out. -/
def nth? {α : Type} (function : String) (i : Nat) (want : Value → Work α) (arguments : List Value) :
    Work (Option α) :=
  (arguments[i - 1]?).mapM (nth function i want)

/-! ### Named parameters -/

/-- A named parameter: whether it may be left out, and what it wants. -/
structure Wanted where
  name : String
  optional : Bool
  want : Value → Work Unit

/-- A named argument for one of some parameters, of which some have an argument. -/
def takeNamed (function : String) (wanted : List Wanted) (taken : List (Option Value)) (name : Bytes)
    (v : Value) : Work (List (Option Value)) := do
  match wanted.findIdx? fun w => utf8 w.name = name with
  | some i =>
    if ((taken[i]?).getD none).isSome then
      throw (utf8 (function ++ ": got multiple values for keyword argument ") ++ Quoted.quote name)
    match wanted[i]? with
    | some w => blaming (function ++ ": for parameter " ++ Quoted.quoteString name ++ ": ") (w.want v)
    | none => pure ()
    return taken.set i (some v)
  | none =>
    let half := (wanted.take ((wanted.length + 1) / 2)).map (·.name)
    let hint := match Spelling.nearest (String.ofList (Utf8.replaceInvalid name)) half with
      | some n => " (did you mean " ++ n ++ "?)"
      | none => ""
    throw (utf8 (function ++ ": unexpected keyword argument ") ++ Quoted.quote name ++ utf8 hint)

/-- Arguments for named parameters, in the order of these. -/
def byName (function : String) (wanted : List Wanted) (a : Arguments) : Work (List (Option Value)) := do
  let n := a.positional.length
  if wanted.length < n then
    complain (function ++ ": got " ++ decimal n ++ " arguments, want at most " ++ decimal wanted.length)
  (wanted.zip a.positional).forM fun (w, v) =>
    blaming (function ++ ": for parameter " ++ w.name ++ ": ") (w.want v)
  let first := a.positional.map some ++ List.replicate (wanted.length - n) none
  let taken ← a.named.foldlM (fun taken (name, v) => takeNamed function wanted taken name v) first
  let required := (wanted.zip taken).drop n |>.takeWhile fun (w, _) => !w.optional
  match required.find? fun (_, v) => v.isNone with
  | some (w, _) => complain (function ++ ": missing argument for " ++ w.name)
  | none => return taken

end Arguments

end TapeMachine.Script
