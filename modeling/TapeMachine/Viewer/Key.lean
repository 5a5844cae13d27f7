/-
Keys of the viewer.

* `KeyPress` is a pressed key, or characters that were typed or pasted at once;
* `KeyPress.name` is the name by which a key is bound;
* `Binding` binds names to an action and says how the help text shows it.
-/
namespace TapeMachine.Viewer

/-- A key. -/
inductive Key where
  | characters (characters : List Char) (pasted : Bool)
  | right
  | left
  | home
  | toEnd
  | up
  | enter
  | escape
  | interrupt
  | backspace
  | delete
  | space
  /-- Any other key, which is known by its name only, as the tab key or ctrl+w. -/
  | named (name : String)
deriving DecidableEq, Repr

/-- A key, pressed alone or together with the key that changes its meaning. -/
structure KeyPress where
  key : Key
  alt : Bool := false
deriving DecidableEq, Repr

/-- The name of a key. Pasted characters stand in brackets. -/
def Key.name : Key → String
  | characters cs pasted => if pasted then "[" ++ String.ofList cs ++ "]" else String.ofList cs
  | right => "right"
  | left => "left"
  | home => "home"
  | toEnd => "end"
  | up => "up"
  | enter => "enter"
  | escape => "esc"
  | interrupt => "ctrl+c"
  | backspace => "backspace"
  | delete => "delete"
  | space => " "
  | named name => name

/-- The name by which a pressed key is bound. -/
def KeyPress.name (k : KeyPress) : String :=
  (if k.alt then "alt+" else "") ++ k.key.name

/-- What keys do. -/
inductive Action where
  | step
  | play
  | faster
  | slower
  | input
  | help
  | quit
deriving DecidableEq, Repr

/-- The keys of an action, and its line in the help text. -/
structure Binding where
  action : Action
  names : List String
  label : String
  description : String
deriving DecidableEq, Repr

namespace Binding

/-- One step. -/
def step : Binding := ⟨.step, ["n", "right"], "n/→", "step"⟩

/-- Begin or end to play. -/
def play : Binding := ⟨.play, ["p", " "], "p", "play/pause"⟩

/-- Play faster. -/
def faster : Binding := ⟨.faster, ["+", "="], "+", "faster"⟩

/-- Play slower. -/
def slower : Binding := ⟨.slower, ["-", "_"], "-", "slower"⟩

/-- Type input. -/
def input : Binding := ⟨.input, ["i"], "i", "feed input"⟩

/-- Show or hide the long help text. -/
def help : Binding := ⟨.help, ["?"], "?", "help"⟩

/-- Leave the viewer. -/
def quit : Binding := ⟨.quit, ["q", "ctrl+c"], "q", "quit"⟩

/-- All bindings. -/
def all : List Binding :=
  [quit, step, play, faster, slower, input, help]

/-- The bindings of the short help text. -/
def short : List Binding :=
  [step, play, input, help, quit]

/-- The bindings of the long help text, by column. -/
def columns : List (List Binding) :=
  [[step, play, faster, slower], [input, help, quit]]

end Binding

/-- The action of a pressed key, if it is bound to one. -/
def KeyPress.action? (k : KeyPress) : Option Action :=
  (Binding.all.find? fun b => b.names.contains k.name).map (·.action)

end TapeMachine.Viewer
