/-
The command line of the tool.

A word that is no directive names the program file, of which there can be one.

* `Options.flags` binds all directives;
* `Options.parse` reads a command line;
* `Options` is what it asks for.
-/
import TapeMachine.CommandLine.Flag
import TapeMachine.CommandLine.Usage
import TapeMachine.Log.Line
import TapeMachine.Settings.Values

namespace TapeMachine.Tool

open CommandLine

/-- What a command line asks for. -/
structure Options where
  file : Bytes := []
  code : Bytes := []
  input : Bytes := []
  stdin : Bool := false
  quiet : Bool := false
  tui : Bool := false
  trace : Bytes := []
  serve : Bytes := []
  tap : Bool := false
  /-- Expressions to evaluate on the final state. -/
  evals : List Bytes := []
  settings : Settings.Request := {}
  level : Log.Level := .warn
deriving DecidableEq, Repr

/-- Why a directive stops the command line. -/
inductive Refusal where
  /-- The usage text was asked for. -/
  | usage
  | moreFiles (first second : Bytes)
deriving DecidableEq, Repr

/-- The message of a refusal. -/
def Refusal.message : Refusal → Bytes
  | usage => []
  | moreFiles first second => utf8 "more than one program file: " ++ first ++ utf8 ", " ++ second

namespace Options

/-- The state that directives work on: the flags, and the level of the log. -/
abbrev State := FlagState Log.Level

/-- A flag with a text value. -/
def textFlag (name description : String) : Flag :=
  ⟨.single .text, utf8 name, utf8 description⟩

/-- A flag with a whole number. -/
def intFlag (name description : String) : Flag :=
  ⟨.single (.int 64), utf8 name, utf8 description⟩

/-- A flag that is on or off. -/
def switchFlag (name description : String) : Flag :=
  ⟨.switch, utf8 name, utf8 description⟩

/-- The flags; the place in the list is the slot. -/
def all : List Flag :=
  [textFlag "-file" "program file, a bare path also works",
    textFlag "-code" "program source",
    textFlag "-input" "program input, Go escapes like \\n allowed",
    switchFlag "-stdin" "append stdin to the program input when it is not a terminal",
    switchFlag "-quiet" "print only the program output",
    switchFlag "-tui" "step the program in a terminal viewer",
    textFlag "-trace" "write a YAML trace of every step to a file, - for stdout",
    textFlag "-serve" "serve a web viewer on the address",
    switchFlag "-tap" "open a starlark REPL on the final state",
    ⟨.collection .text, utf8 "-eval",
      utf8 "print a starlark expression over the final state, repeatable"⟩,
    intFlag "-tape-length" "initial number of tape cells",
    intFlag "-max-steps" "step budget of a run",
    intFlag "-preview" "number of tape cells shown by viewers",
    ⟨.single (.optional (.int 64)), utf8 "-delay", utf8 "milliseconds between animated steps"⟩]

/-- The text in a slot. -/
def text (store : FlagStore) (slot : Nat) : Bytes :=
  match store[slot]? with
  | some (.one (.text value)) => value
  | _ => []

/-- The whole number in a slot. -/
def int (store : FlagStore) (slot : Nat) : Int :=
  match store[slot]? with
  | some (.one (.int value)) => value
  | _ => 0

/-- The switch in a slot. -/
def switch (store : FlagStore) (slot : Nat) : Bool :=
  match store[slot]? with
  | some (.switch on) => on
  | _ => false

/-- The optional whole number in a slot. -/
def int? (store : FlagStore) (slot : Nat) : Option Int :=
  match store[slot]? with
  | some (.one (.reference (.int value))) => some value
  | _ => none

/-- The collected texts in a slot. -/
def texts (store : FlagStore) (slot : Nat) : List Bytes :=
  match store[slot]? with
  | some (.many values) => values.filterMap fun
    | .text value => some value
    | _ => none
  | _ => []

/-- The options that flags and a level make. -/
def ofState (s : State) : Options where
  file := text s.store 0
  code := text s.store 1
  input := text s.store 2
  stdin := switch s.store 3
  quiet := switch s.store 4
  tui := switch s.store 5
  trace := text s.store 6
  serve := text s.store 7
  tap := switch s.store 8
  evals := texts s.store 9
  settings := {
    tapeLength := int s.store 10
    maxSteps := int s.store 11
    previewCells := int s.store 12
    delay := int? s.store 13 }
  level := s.rest

/-- The directives that set the level of the log. -/
def levels : List (String × Log.Level) :=
  [("-log-debug", .debug), ("-log-info", .info), ("-log-warn", .warn), ("-log-error", .error)]

/-- Takes a word that is no directive as the program file. -/
def takeFile (word : Bytes) (s : State) : State × Option Refusal :=
  let file := text s.store 0
  if file.isEmpty then ({ s with store := s.store.put 0 (.one (.text word)) }, none)
  else (s, some (.moreFiles file word))

/-- Binds a directive that sets the level of the log. -/
def defineLevel (flags : Flags Log.Level Refusal) (name : String) (level : Log.Level) :
    Flags Log.Level Refusal :=
  let handler : Handler State Refusal := { params := [], call := fun _ s => ({ s with rest := level }, none) }
  let help : Help := { id := flags.nextId, description := utf8 ("set log level to " ++ level.name) }
  { flags with
    executor := (flags.executor.define (utf8 name) (.mk help (some handler) [])).2
    nextId := flags.nextId + 1 }

/-- All directives. -/
def flags : Flags Log.Level Refusal :=
  let help : Handler State Refusal := { params := [], call := fun _ s => (s, some .usage) }
  let start : Flags Log.Level Refusal := { executor := { Executor.new help with unknown := some takeFile } }
  let flags := all.foldl (fun flags flag => (flags.define flag).2) start
  levels.foldl (fun flags (name, level) => defineLevel flags name level) flags

/-- The state before any word. -/
def initial : State :=
  ⟨flags.initial, .warn⟩

/-- Reads a command line. What the words before an error asked for stays. -/
def parse (words : List Bytes) : Options × Option (ExecuteError Refusal) :=
  let (s, error) := flags.executor.execute words initial
  (ofState s, error)

/-- The usage text. -/
def usage : Bytes :=
  CommandLine.usage flags.executor.table

end Options

end TapeMachine.Tool
