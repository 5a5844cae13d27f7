/-
Command lines: words run against a table of directives.

A directive is a function run by name, or a group of sub directives, or both. It takes the words that
follow it as its arguments; its sub directives can be used by the words after it.

* `Executor.define` binds a directive to its name and aliases;
* `TableStore` holds tables, each at a place, that are read, changed and copied where they lie;
* `Executor.run` runs a command line from left to right and stops at the first error.

A command line starts with the executor's own table, at its place. Sub directives become visible in a copy.

The functions work on a state of type `σ` and fail with errors of type `ε`.
-/
import TapeMachine.CommandLine.Argument

namespace TapeMachine.CommandLine

/-- The function of a directive. A call changes the state also if it fails. -/
structure Handler (σ ε : Type) where
  params : List ArgType
  call : List ArgValue → σ → σ × Option ε

/-- What the usage text says about a directive. -/
structure Help where
  /-- Tells directives apart: names bound to one directive share it. -/
  id : Nat
  description : Bytes := []
  aliases : List Bytes := []
  argNames : List Bytes := []
deriving DecidableEq, Repr

/-- A directive. A sub name may be bound to nothing. -/
inductive Directive (σ ε : Type) where
  | mk (help : Help) (handler : Option (Handler σ ε))
      (subs : List (Bytes × Option (Directive σ ε)))

namespace Directive

variable {σ ε : Type}

/-- What the usage text says. -/
def help : Directive σ ε → Help
  | mk help _ _ => help

/-- The function, if the directive has one. -/
def handler : Directive σ ε → Option (Handler σ ε)
  | mk _ handler _ => handler

/-- The sub directives by name. -/
def subs : Directive σ ε → List (Bytes × Option (Directive σ ε))
  | mk _ _ subs => subs

/-- The types of the arguments; a directive without a function takes none. -/
def params (d : Directive σ ε) : List ArgType :=
  (d.handler.map (·.params)).getD []

/-- Calls the function, if there is one. -/
def run (d : Directive σ ε) (values : List ArgValue) (s : σ) : σ × Option ε :=
  match d.handler with
  | none => (s, none)
  | some handler => handler.call values s

end Directive

/-- Names and the directives they are bound to. -/
abbrev Table (σ ε : Type) := List (Bytes × Option (Directive σ ε))

/-- Why a command line stops. -/
inductive ExecuteError (ε : Type) where
  /-- The word names no directive. -/
  | unknown (name : Bytes)
  /-- The handler of unknown words refused the word. -/
  | rejected (error : ε)
  /-- A word does not fit as an argument. -/
  | argument (name : Bytes) (error : ArgError)
  /-- The function failed. -/
  | handler (name : Bytes) (error : ε)
  /-- A sub directive has a name that is in use. -/
  | duplicatedSub (name sub : Bytes)
  /-- The name is bound to nothing. -/
  | unbound (name : Bytes)
deriving DecidableEq

/-- The message of an error, given those of the functions' errors. -/
def ExecuteError.message {ε : Type} (wording : ε → Bytes) : ExecuteError ε → Bytes
  | unknown name => utf8 "unknown command: " ++ name
  | rejected e => wording e
  | argument name e => name ++ utf8 ": " ++ e.message
  | handler name e => name ++ utf8 ": " ++ wording e
  | duplicatedSub name sub => utf8 "duplicated sub command: " ++ name ++ 32 :: sub
  | unbound name => name

/-- The directives of a program, and what it does with words that name none. -/
structure Executor (σ ε : Type) where
  table : Table σ ε
  unknown : Option (Bytes → σ → σ × Option ε) := none

namespace Executor

variable {σ ε : Type}

/-- Binds names to a directive one by one, up to the first one in use. -/
def bindAll (d : Directive σ ε) : List Bytes → Table σ ε → Option Bytes × Table σ ε
  | [], table => (none, table)
  | name :: names, table =>
    if (table.lookup name).isSome then (some name, table)
    else bindAll d names (table ++ [(name, some d)])

/-- Binds a directive to its name and aliases. If one of them is in use it is returned, and the names
before it stay bound. -/
def define (e : Executor σ ε) (name : Bytes) (d : Directive σ ε) : Option Bytes × Executor σ ε :=
  let (duplicate, table) := bindAll d (name :: d.help.aliases) e.table
  (duplicate, { e with table })

/-- The message for a name that is in use. -/
def duplicateMessage (name : Bytes) : Bytes :=
  utf8 "duplicated command " ++ name

end Executor

/-! ### Tables at places -/

/-- Tables, each at a place. Whoever knows the place of a table sees what others bind there. -/
structure TableStore (σ ε : Type) where
  tables : List (Table σ ε)

namespace TableStore

variable {σ ε : Type}

/-- The table at a place. -/
def get (store : TableStore σ ε) (place : Nat) : Table σ ε :=
  store.tables.getD place []

/-- Binds a name in the table at a place. -/
def bind (store : TableStore σ ε) (place : Nat) (name : Bytes) (d : Option (Directive σ ε)) :
    TableStore σ ε where
  tables := store.tables.modify place (· ++ [(name, d)])

/-- Copies the table at a place to a new place, which is returned. -/
def clone (store : TableStore σ ε) (place : Nat) : Nat × TableStore σ ε :=
  (store.tables.length, ⟨store.tables ++ [store.get place]⟩)

/-- Binds names one by one in the table at a place, up to the first one in use there, which is returned. -/
def bindAll (place : Nat) : List (Bytes × Option (Directive σ ε)) → TableStore σ ε →
    Option Bytes × TableStore σ ε
  | [], store => (none, store)
  | (name, d) :: rest, store =>
    if ((store.get place).lookup name).isSome then (some name, store)
    else bindAll place rest (store.bind place name d)

/-- Makes sub directives visible next to what the table at a place binds: in a copy of it, whose place is
returned. Without sub directives there is no copy. A name in use is returned as well. -/
def reveal (store : TableStore σ ε) (place : Nat) (subs : List (Bytes × Option (Directive σ ε))) :
    Option Bytes × Nat × TableStore σ ε :=
  if subs.isEmpty then (none, place, store)
  else
    let (copy, store) := store.clone place
    let (duplicate, store) := bindAll copy subs store
    (duplicate, copy, store)

end TableStore

namespace Executor

variable {σ ε : Type}

/-- Runs words with the directives in the table at a place. Returns the store as it is left, too. -/
def runWords (unknown : Option (Bytes → σ → σ × Option ε)) (place : Nat) (store : TableStore σ ε)
    (words : List Bytes) (s : σ) : (σ × Option (ExecuteError ε)) × TableStore σ ε :=
  match words with
  | [] => ((s, none), store)
  | word :: words =>
    let name := Utf8.trim word
    match (store.get place).lookup name with
    | none =>
      match unknown with
      | none => ((s, some (.unknown name)), store)
      | some handle =>
        if name.head? = some 45 then ((s, some (.unknown name)), store)
        else match handle name s with
          | (s, some error) => ((s, some (.rejected error)), store)
          | (s, none) => runWords (some handle) place store words s
    | some none => ((s, some (.unbound name)), store)
    | some (some d) =>
      match _h : takeArguments d.params words with
      | .error error => ((s, some (.argument name error)), store)
      | .ok (values, words) =>
        match d.run values s with
        | (s, some error) => ((s, some (.handler name error)), store)
        | (s, none) =>
          match store.reveal place d.subs with
          | (some sub, _, store) => ((s, some (.duplicatedSub name sub)), store)
          | (none, place, store) => runWords unknown place store words s
termination_by words.length
decreasing_by
  all_goals simp_wf
  have := length_of_takeArguments _h
  omega

/-- Runs a command line. Returns the executor as it is left, too: with the table that then lies at the place
of its own. -/
def run (e : Executor σ ε) (words : List Bytes) (s : σ) :
    (σ × Option (ExecuteError ε)) × Executor σ ε :=
  let (result, store) := runWords e.unknown 0 ⟨[e.table]⟩ words s
  (result, { e with table := store.get 0 })

/-- Runs a command line, of which only the result is asked for. -/
def execute (e : Executor σ ε) (words : List Bytes) (s : σ) : σ × Option (ExecuteError ε) :=
  (e.run words s).1

/-- The name of the directive that prints the usage. -/
def helpName : Bytes := utf8 "-h"

/-- The directive that prints the usage, with the given function. -/
def helpDirective (handler : Handler σ ε) : Directive σ ε :=
  .mk { id := 0, description := utf8 "print this usage",
        aliases := [utf8 "help", utf8 "-help", utf8 "--help"] } (some handler) []

/-- An executor with no other directive than the one that prints the usage. -/
def new (help : Handler σ ε) : Executor σ ε :=
  (define { table := [] } helpName (helpDirective help)).2

end Executor

end TapeMachine.CommandLine
