/-
The limits of a server.

* `Options` is what a server is asked for;
* `Options.limits` is what it keeps to: numbers that are not positive stand for the defaults.
-/
import TapeMachine.Settings.Values

namespace TapeMachine.Web

/-- The number of streams at a time. -/
def defaultMaxStreams : Int := 16

/-- How long a connection waits for a place, in milliseconds. -/
def defaultQueueTimeout : Int := 10000

/-- What a server is asked for. Times are in milliseconds. -/
structure Options where
  tapeLength : Int := 0
  maxSteps : Int := 0
  /-- The number of cells in a frame. -/
  cells : Int := 0
  delay : Int := 0
  maxStreams : Int := 0
  queueTimeout : Int := 0
deriving DecidableEq, Repr

/-- What a server keeps to. -/
structure Limits where
  tapeLength : Nat
  maxSteps : Nat
  cells : Int
  delay : Nat
  maxStreams : Nat
  queueTimeout : Nat
deriving DecidableEq, Repr

/-- A number, or the default if it is not positive. -/
def positiveOr (fallback n : Int) : Nat :=
  if n ≤ 0 then fallback.toNat else n.toNat

/-- What a server with these options keeps to. There is no delay if it is not positive. -/
def Options.limits (o : Options) : Limits where
  tapeLength := positiveOr Settings.defaultTapeLength o.tapeLength
  maxSteps := positiveOr Settings.defaultMaxSteps o.maxSteps
  cells := o.cells
  delay := o.delay.toNat
  maxStreams := positiveOr defaultMaxStreams o.maxStreams
  queueTimeout := positiveOr defaultQueueTimeout o.queueTimeout

end TapeMachine.Web
