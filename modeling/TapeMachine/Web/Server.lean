/-
A server of streams.

A connection waits for a place, streams its frames with the delay between them, and gives its place back.
One that waits too long gets the busy frame. A frame is sent when the visitor reads it: until then the
stream stands still, and keeps its place.

* `Server.connect` and `Server.leave` are what visitors do, `Server.cancel` is the end of the server;
* `Server.fire` is what happens next by itself, and moves the clock;
* `Server.receive` reads frames and waits for those that are not there yet.
-/
import TapeMachine.Web.Slots
import TapeMachine.Web.Stream

namespace TapeMachine.Web

/-- Where the server is with a connection. -/
inductive Phase where
  /-- It waits for a place, until a time. -/
  | waiting (deadline : Nat)
  /-- It has a place, and offers the next frame from a time on. -/
  | streaming (time : Nat) (machine : Machine)
  /-- It has a place, and offers a frame that is the last one because the server has ended. -/
  | cutOff (frame : Frame)
  /-- It found no place, and offers the busy frame. -/
  | refused
  | ended

/-- Whether a connection has a place. -/
def Phase.isStreaming : Phase → Bool
  | streaming _ _ | cutOff _ => true
  | _ => false

/-- Whether a connection waits for a place. -/
def Phase.isWaiting : Phase → Bool
  | waiting _ => true
  | _ => false

/-- A connection of a visitor. -/
structure Connection where
  phase : Phase
  /-- Whether the visitor left. -/
  dropped : Bool := false

/-- When something happens to a connection by itself: it has waited long enough, or it finds that the
visitor left. -/
def Connection.due? (c : Connection) : Option Nat :=
  match c.phase with
  | .waiting deadline => some deadline
  | .streaming time _ => if c.dropped then some time else none
  | .cutOff _ => if c.dropped then some 0 else none
  | .refused | .ended => none

/-- A server at a time. -/
structure Server where
  limits : Limits
  program : Program
  input : Bytes
  slots : Slots
  now : Nat := 0
  connections : Array Connection := #[]
  canceled : Bool := false

namespace Server

/-- A server that nobody has visited. -/
def new (o : Options) (program : Program) (input : Bytes) : Server where
  limits := o.limits
  program
  input
  slots := { capacity := o.limits.maxStreams }

/-- Moves a connection to a phase. -/
def move (s : Server) (i : Nat) (phase : Phase) : Server :=
  { s with connections := s.connections.modify i fun c => { c with phase } }

/-- Gives a free place to the connection that has waited longest. -/
def seat (s : Server) : Server :=
  match s.slots.acquire?, s.connections.findIdx? (·.phase.isWaiting) with
  | some slots, some i =>
    { s with slots }.move i (.streaming s.now (.start s.program s.limits.tapeLength s.input))
  | _, _ => s

/-- Ends a stream and gives its place to the next connection. -/
def finish (s : Server) (i : Nat) : Server :=
  let s := s.move i .ended
  { s with slots := s.slots.release?.getD s.slots }.seat

/-- A new connection; it is counted from 0. A server that has ended lets nobody wait. -/
def connect (s : Server) : Server :=
  let i := s.connections.size
  let s := { s with connections := s.connections.push { phase := .waiting (s.now + s.limits.queueTimeout) } }.seat
  match s.connections[i]? with
  | some c => if s.canceled && c.phase.isWaiting then s.move i .refused else s
  | none => s

/-- The connection to which something happens by itself first, and when. -/
def next? (s : Server) : Option (Nat × Nat) :=
  (s.connections.toList.zipIdx.filterMap fun (c, i) => c.due?.map (·, i)).foldl (fun first e =>
    match first with
    | none => some e
    | some f => if e.1 < f.1 then some e else some f) none

/-- What happens to a connection by itself at a time: it has waited too long, or nobody is there to read its
next frame, which ends the stream. -/
def fire (s : Server) (time i : Nat) : Server :=
  let s := { s with now := max s.now time }
  match s.connections[i]? with
  | none => s
  | some c =>
    match c.phase with
    | .waiting _ => s.move i .refused
    | .streaming _ _ | .cutOff _ => s.finish i
    | .refused | .ended => s

/-- Lets at most `fuel` things happen by themselves, up to a time. -/
def settleUntil (time : Nat) : Nat → Server → Server
  | 0, s => s
  | fuel + 1, s =>
    match s.next? with
    | none => s
    | some (due, i) => if time < due then s else settleUntil time fuel (s.fire due i)

/-- No more things than these can happen by themselves: each connection stops waiting, and each stream ends,
once. -/
def fuel (s : Server) : Nat :=
  2 * s.connections.size

/-- Lets everything happen that is due by a time, and moves the clock there. -/
def advance (s : Server) (time : Nat) : Server :=
  let s := s.settleUntil time s.fuel
  { s with now := max s.now time }

/-- A visitor leaves. -/
def leave (s : Server) (i : Nat) : Server :=
  { s with connections := s.connections.modify i fun c => { c with dropped := true } }

/-- What becomes of a connection when the server ends. A stream that has a frame to offer offers that one
yet, one that pauses between two frames stops, and a connection that waits gets the busy frame. -/
def cutShort (s : Server) (c : Connection) : Connection :=
  match c.phase with
  | .waiting _ => { c with phase := .refused }
  | .streaming time machine =>
    if time ≤ s.now then { c with phase := .cutOff (Stream.next s.limits s.canceled machine).1 }
    else { c with phase := .ended }
  | _ => c

/-- Ends the server. -/
def cancel (s : Server) : Server :=
  let s := s.advance s.now
  let connections := s.connections.map s.cutShort
  { s with
    canceled := true
    connections
    slots := { s.slots with used := (connections.filter (·.phase.isStreaming)).size } }

/-- Waits until a connection no longer waits for a place. -/
def awaitPlace (i : Nat) : Nat → Server → Server
  | 0, s => s
  | fuel + 1, s =>
    if s.connections[i]?.any (·.phase.isWaiting) then
      match s.next? with
      | none => s
      | some (time, j) => awaitPlace i fuel (s.fire time j)
    else s

/-- Reads the frame that a connection offers; there is none at the end of the stream. -/
def take (s : Server) (i : Nat) : Phase → Option Frame × Server
  | .streaming time machine =>
    let s := s.advance time
    match Stream.next s.limits s.canceled machine with
    | (frame, none) => (some frame, s.finish i)
    | (frame, some machine) => (some frame, s.move i (.streaming (s.now + s.limits.delay) machine))
  | .cutOff frame => (some frame, s.finish i)
  | .refused => (some .busy, s.move i .ended)
  | .waiting _ | .ended => (none, s)

/-- Waits for the next frame of a connection and reads it. A visitor who left reads nothing. -/
def receiveOne (s : Server) (i : Nat) : Option Frame × Server :=
  match s.connections[i]? with
  | none => (none, s)
  | some c =>
    if c.dropped then (none, s)
    else
      let s := awaitPlace i s.fuel s
      match s.connections[i]? with
      | none => (none, s)
      | some c => s.take i c.phase

/-- Reads up to `count` frames of a connection, and tells whether the stream ended before that. -/
def receive (i : Nat) : Nat → Server → List Frame × Bool × Server
  | 0, s => ([], false, s)
  | count + 1, s =>
    match s.receiveOne i with
    | (none, s) => ([], true, s)
    | (some frame, s) =>
      let (frames, ended, s) := receive i count s
      (frame :: frames, ended, s)

/-- Reads a connection to its end. -/
def receiveAll (s : Server) (i : Nat) : List Frame × Bool × Server :=
  receive i (s.limits.maxSteps + 2) s

end Server

end TapeMachine.Web
