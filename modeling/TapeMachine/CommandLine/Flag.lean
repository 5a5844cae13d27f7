/-
Flags: settings that command words write and that keep their values between command lines.

A variable `name` is set by `name value` and reset by `name.`; a switch is set by `name` and cleared by
`!name`; a collection grows by `name value`.

* `Flag` says what a flag is;
* `FlagStore` holds the values by slot;
* `Flags.define` makes the directives of a flag and gives it a slot.
-/
import TapeMachine.CommandLine.Executor

namespace TapeMachine.CommandLine

/-- The kinds of flags. -/
inductive FlagKind where
  | single (type : ArgType)
  | switch
  | collection (type : ArgType)
deriving DecidableEq, Repr

/-- A flag by its name, with a description for the usage text. -/
structure Flag where
  kind : FlagKind
  name : Bytes
  description : Bytes
deriving DecidableEq, Repr

/-- The value of a flag. -/
inductive FlagValue where
  | one (value : ArgValue)
  | switch (on : Bool)
  | many (values : List ArgValue)
deriving DecidableEq, Repr

/-- The value of a flag that no word has written. -/
def FlagKind.initial : FlagKind → FlagValue
  | single type => .one type.zero
  | switch => .switch false
  | collection _ => .many []

/-- The values of flags by slot. -/
abbrev FlagStore := List FlagValue

namespace FlagStore

/-- Writes a slot. -/
def put (store : FlagStore) (slot : Nat) (value : FlagValue) : FlagStore :=
  store.set slot value

/-- Appends to the collection in a slot. -/
def append (store : FlagStore) (slot : Nat) (value : ArgValue) : FlagStore :=
  store.modify slot fun
    | .many values => .many (values ++ [value])
    | other => other

end FlagStore

/-- The flags' values beside a state of their own that other directives work on. -/
structure FlagState (τ : Type) where
  store : FlagStore
  rest : τ

/-- An executor with flags, and the values that they start with. -/
structure Flags (τ ε : Type) where
  executor : Executor (FlagState τ) ε
  initial : FlagStore := []
  /-- The number of directives made so far. -/
  nextId : Nat := 1

namespace Flags

variable {τ ε : Type}

/-- A function that writes the store and never fails. -/
def writer (params : List ArgType) (write : List ArgValue → FlagStore → FlagStore) :
    Handler (FlagState τ) ε where
  params
  call values s := ({ s with store := write values s.store }, none)

/-- The words of a flag with the functions behind them, for the flag with a slot. -/
def words (slot : Nat) (flag : Flag) :
    List (Bytes × Handler (FlagState τ) ε × Bytes × List Bytes) :=
  match flag.kind with
  | .single type => [
      (flag.name,
        writer [type] (fun values store => store.put slot (.one (values.headD type.zero))),
        flag.description, [utf8 "value"]),
      (flag.name ++ utf8 ".",
        writer [] (fun _ store => store.put slot (.one type.zero)),
        utf8 "reset " ++ flag.name, [])]
  | .switch => [
      (flag.name, writer [] (fun _ store => store.put slot (.switch true)), flag.description, []),
      (utf8 "!" ++ flag.name, writer [] (fun _ store => store.put slot (.switch false)),
        utf8 "unset " ++ flag.name, [])]
  | .collection type => [
      (flag.name,
        writer [type] (fun values store => store.append slot (values.headD type.zero)),
        flag.description, [utf8 "value"])]

/-- Binds words one by one, up to the first one in use. -/
def bindWords : List (Bytes × Handler (FlagState τ) ε × Bytes × List Bytes) → Flags τ ε →
    Option Bytes × Flags τ ε
  | [], flags => (none, flags)
  | (name, handler, description, argNames) :: rest, flags =>
    let d := .mk { id := flags.nextId, description, argNames } (some handler) []
    match flags.executor.define name d with
    | (some duplicate, executor) => (some duplicate, { flags with executor })
    | (none, executor) => bindWords rest { flags with executor, nextId := flags.nextId + 1 }

/-- Gives a flag a slot and binds its words. If one of them is in use it is returned, and the words
before it stay bound. -/
def define (flags : Flags τ ε) (flag : Flag) : Option Bytes × Flags τ ε :=
  let slot := flags.initial.length
  bindWords (words slot flag) { flags with initial := flags.initial ++ [flag.kind.initial] }

end Flags

end TapeMachine.CommandLine
