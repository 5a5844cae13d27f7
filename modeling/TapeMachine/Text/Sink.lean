/-
Sinks: where a program writes, with or without a limit on the bytes it takes.

* `Sink.write?` takes a chunk as a whole or not at all;
* `Sink.writeAll` takes chunks up to the first one that does not fit;
* `Sink.contents` is all that was written.
-/
import TapeMachine.Text.Bytes

namespace TapeMachine

/-- A place to write to that takes at most `limit` bytes, if there is a limit. -/
structure Sink where
  limit : Option Nat := none
  size : Nat := 0
  /-- The chunks taken, newest first. -/
  chunks : List Bytes := []
deriving Repr

namespace Sink

/-- All bytes written. -/
def contents (s : Sink) : Bytes :=
  s.chunks.reverse.flatten

/-- Writes a chunk, unless it would exceed the limit. -/
def write? (s : Sink) (chunk : Bytes) : Option Sink :=
  let size := s.size + chunk.length
  if s.limit.any (· < size) then none
  else some { s with size, chunks := chunk :: s.chunks }

/-- Writes a chunk, or leaves the sink as it is if it is full. -/
def write (s : Sink) (chunk : Bytes) : Sink :=
  (s.write? chunk).getD s

/-- Writes chunks in order, up to the first one that is refused, and tells whether all were taken. -/
def writeAll : Sink → List Bytes → Bool × Sink
  | s, [] => (true, s)
  | s, chunk :: chunks =>
    match s.write? chunk with
    | some s => writeAll s chunks
    | none => (false, s)

/-- The message of a sink that takes no more. -/
def fullMessage : String :=
  "disk full"

end Sink

end TapeMachine
