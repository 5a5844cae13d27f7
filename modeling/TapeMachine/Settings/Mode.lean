/-
Modes of operation.

In production the settings are read from files; in development they are not.
-/
namespace TapeMachine

/-- How the program is operated. -/
inductive Mode where
  | production
  | development
deriving DecidableEq, Repr

namespace Mode

/-- The name of a mode. -/
def name : Mode → String
  | production => "production"
  | development => "development"

/-- The modes by number. -/
def ofCode? : Int → Option Mode
  | 1 => some production
  | 2 => some development
  | _ => none

/-- The name of the mode with a number. -/
def nameOfCode (code : Int) : String :=
  ((ofCode? code).map name).getD "unknown"

end Mode

end TapeMachine
