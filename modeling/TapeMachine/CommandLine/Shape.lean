/-
Shapes of the functions that may stand behind a command word.

A function takes arguments from the following words and returns nothing or an error.

* `Shape.check` refuses everything else.
-/
import TapeMachine.CommandLine.Argument

namespace TapeMachine.CommandLine

/-- What is given as the function of a command word. -/
inductive Shape where
  /-- Not a function but a value of the named type. -/
  | value (type : String)
  /-- A function without arguments that returns values of the named types. -/
  | function (results : List String)
deriving DecidableEq, Repr

namespace Shape

/-- The name of the type of errors. -/
def errorType : String := "error"

/-- A function type in words. -/
def functionType (results : List String) : String :=
  match results with
  | [] => "func()"
  | [result] => "func() " ++ result
  | _ => "func() (" ++ ", ".intercalate results ++ ")"

/-- Accepts a function that returns nothing or an error, and words the objection to anything else. -/
def check : Shape → Except String Unit
  | value type => .error ("must be function, got " ++ type)
  | function [] => .ok ()
  | function [result] =>
    if result = errorType then .ok ()
    else .error ("must return error: " ++ functionType [result])
  | function results => .error ("must return 0 or 1 value: " ++ functionType results)

end Shape

end TapeMachine.CommandLine
