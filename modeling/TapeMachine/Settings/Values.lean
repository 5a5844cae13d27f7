/-
Settings: what was asked for on the command line wins over settings files, and those win over the
defaults.

* `Settings.schema` says which fields settings files have, in their language;
* `Settings.tapeLength`, `Settings.maxSteps`, `Settings.previewCells`, `Settings.stepDelay` are the
  values in effect.

A number on the command line counts only if it is positive. The delay counts also if it is zero, because
it is told apart whether it was given.
-/
import TapeMachine.Config.Loader

namespace TapeMachine.Settings

open Config

/-- The number of cells of a new tape. -/
def defaultTapeLength : Int := 30000

/-- The number of steps of a run. -/
def defaultMaxSteps : Int := 100000

/-- The number of cells that displays show. -/
def defaultPreviewCells : Int := 10

/-- The delay between the steps of an animation, in nanoseconds. -/
def defaultStepDelay : Int64 := 100000000

/-- The fields of settings files. -/
def schema : String :=
  "tape_length?:   int & >0\nmax_steps?:     int & >0\npreview_cells?: int & >0\nstep_delay_ms?: int & >=0\n"

/-- What the command line asks for. -/
structure Request where
  tapeLength : Int := 0
  maxSteps : Int := 0
  previewCells : Int := 0
  /-- Milliseconds, if given. -/
  delay : Option Int := none
deriving DecidableEq, Repr

/-- A setting that cannot be read from the files, by its path. -/
structure Failure (ε : Type := Error) where
  path : String
  error : LookupError ε
deriving DecidableEq, Repr

variable {L : Language}

/-- The first number that is not zero. -/
def firstNonzero : List Int → Int
  | [] => 0
  | n :: rest => if n = 0 then firstNonzero rest else n

/-- Reads a whole number from the files. -/
def fromFiles (l : Loader L) (path : String) : Except (Failure L.Error) (Option Int) :=
  match l.lookup path L.int? with
  | .ok value => .ok value
  | .error error => .error ⟨path, error⟩

/-- The value in effect of a number. The files have to be readable also if they do not decide. -/
def number (l : Loader L) (path : String) (flag fallback : Int) : Except (Failure L.Error) Int :=
  match fromFiles l path with
  | .error e => .error e
  | .ok value => .ok (firstNonzero [max flag 0, value.getD 0, fallback])

/-- The number of cells of a new tape. -/
def tapeLength (l : Loader L) (r : Request) : Except (Failure L.Error) Int :=
  number l "tape_length" r.tapeLength defaultTapeLength

/-- The number of steps of a run. -/
def maxSteps (l : Loader L) (r : Request) : Except (Failure L.Error) Int :=
  number l "max_steps" r.maxSteps defaultMaxSteps

/-- The number of cells that displays show. -/
def previewCells (l : Loader L) (r : Request) : Except (Failure L.Error) Int :=
  number l "preview_cells" r.previewCells defaultPreviewCells

/-- Milliseconds as nanoseconds in a word of 64 bits, which wraps around. -/
def milliseconds (ms : Int) : Int64 :=
  Int64.ofInt ms * 1000000

/-- The delay between the steps of an animation, in nanoseconds. -/
def stepDelay (l : Loader L) (r : Request) : Except (Failure L.Error) Int64 :=
  match r.delay with
  | some ms => .ok (milliseconds (max ms 0))
  | none =>
    match fromFiles l "step_delay_ms" with
    | .error e => .error e
    | .ok (some ms) => .ok (milliseconds ms)
    | .ok none => .ok defaultStepDelay

end TapeMachine.Settings
