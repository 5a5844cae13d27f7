/-
Streams: a machine that runs and sends a frame after each step.

* `Stream.next` is the next frame and, unless it is the last one, the machine after it;
* `Stream.frames` is all frames of a stream.
-/
import TapeMachine.Web.Frame
import TapeMachine.Web.Limits

namespace TapeMachine.Web.Stream

/-- The last frame of a machine that halted. -/
def halt (l : Limits) (m : Machine) (reason : HaltReason) (stop : Option Stop) : Frame :=
  .ofHalt (m.snapshot l.cells) (m.summarize m.steps reason stop)

/-- The next frame of a stream, and the machine after it if more frames follow. -/
def next (l : Limits) (canceled : Bool) (m : Machine) : Frame × Option Machine :=
  if l.maxSteps ≤ m.steps then (halt l m m.haltReason (m.fault.map .fault), none)
  else if canceled then (halt l m .canceled (some (.interrupted .canceled)), none)
  else
    match m.step with
    | (.ended, m) => (halt l m .programEnded none, none)
    | (.faulted f, m) => (halt l m .faulted (some (.fault f)), none)
    | (.stepped record, m) => (.ofStep m.steps record l.cells, some m)

/-- The frames from a machine on, at most `fuel` of them. -/
def framesFrom (l : Limits) : Nat → Machine → List Frame
  | 0, _ => []
  | fuel + 1, m =>
    match next l false m with
    | (frame, none) => [frame]
    | (frame, some m) => frame :: framesFrom l fuel m

/-- The frames of a stream that nobody interrupts: one for each step, and one for the end. -/
def frames (l : Limits) (program : Program) (input : Bytes) : List Frame :=
  framesFrom l (l.maxSteps + 1) (.start program l.tapeLength input)

end TapeMachine.Web.Stream
