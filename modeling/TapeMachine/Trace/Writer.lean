/-
Traces: a stream of YAML documents, one per step, closed by a summary.

* `Trace.entry` and `Trace.summary` are the documents;
* `Trace.Writer` writes them to a sink, through a buffer that is emptied when it is full and at the end
  of each document.

A writer that failed once fails for good, and a stream without documents cannot be closed.
-/
import TapeMachine.Display.Tape
import TapeMachine.Machine.Run
import TapeMachine.Text.Sink
import TapeMachine.Text.Utf8
import TapeMachine.Yaml.Node

namespace TapeMachine.Trace

open Yaml (Node)

/-- The cells that a document shows of a tape: the first `cells`, if the number is positive and there are
more of them. -/
def shownTape (cells : Int) (t : Tape) : Tape :=
  if 0 < cells ∧ cells < t.length then t.first cells.toNat else t

/-- The fields of a state, with the first `cells` cells of its tape. -/
def state (cells : Int) (s : State) : Node :=
  .mapping [
    ("pointer", .int s.pointer),
    ("pc", .int s.pc),
    ("cell", .int s.cell.toNat),
    ("tape", .row ((shownTape cells s.tape).toList.map UInt8.toNat)),
    ("output", .text (utf8 (Display.output s.output)))]

/-- The document of a step. -/
def entry (cells : Int) (step : Nat) (r : StepRecord) : List (String × Node) :=
  [("step", .int step),
    ("command", .text [r.command.toByte]),
    ("position", .int r.position),
    ("before", state cells r.before),
    ("after", state cells r.after)]

/-- The document that closes a trace; a fault is left out if there is none. -/
def summary (steps : Int) (halt : String) (fault : Option String) (output : Bytes) :
    List (String × Node) :=
  [("steps", .int steps), ("halt", .text (utf8 halt))] ++
    (match fault with
      | none => []
      | some message => [("fault", .text (utf8 message))]) ++
    [("output", .text (utf8 (Display.output output)))]

/-- What goes wrong when a trace is written. -/
inductive Error where
  /-- The sink refused the document of a step. -/
  | step (step : Nat)
  /-- The sink refused the summary. -/
  | summary
  /-- The stream has no document. -/
  | nothingWritten
deriving DecidableEq, Repr

/-- The message of a trace error. -/
def Error.message : Error → String
  | step n => "encode trace step " ++ decimal n ++ ": yaml: write error: " ++ Sink.fullMessage
  | summary => "encode trace summary: yaml: write error: " ++ Sink.fullMessage
  | nothingWritten => "yaml: expected STREAM-START"

/-- The number of bytes from which on the buffer takes no further character. -/
def bufferSize : Nat := 123

/-- The chunks in which a text passes the buffer, of which `held` stands in the buffer, last character
first. -/
def chunksFrom (held : List Rune) (size : Nat) : List Rune → List Bytes
  | [] => [Utf8.encode held.reverse]
  | r :: rest =>
    let width := (Utf8.encodeRune r).length
    if bufferSize ≤ size then Utf8.encode held.reverse :: chunksFrom [r] width rest
    else chunksFrom (r :: held) (size + width) rest

/-- The chunks in which a text passes the buffer. -/
def chunks (text : Bytes) : List Bytes :=
  chunksFrom [] 0 (Utf8.runes text)

/-- A trace being written, with windows of `cells` cells. -/
structure Writer where
  cells : Int
  sink : Sink
  started : Bool := false
  failed : Bool := false

namespace Writer

/-- Writes one document, separated from the one before. -/
def write? (w : Writer) (document : List (String × Node)) : Bool × Writer :=
  let separator := if w.started then utf8 "---\n" else []
  if w.failed then (false, w)
  else match w.sink.writeAll (chunks (separator ++ Node.renderFields 0 document)) with
    | (true, sink) => (true, { w with sink, started := true })
    | (false, sink) => (false, { w with sink, started := true, failed := true })

/-- Writes the document of a step. -/
def step (w : Writer) (n : Nat) (r : StepRecord) : Option Error × Writer :=
  match w.write? (entry w.cells n r) with
  | (true, w) => (none, w)
  | (false, w) => (some (.step n), w)

/-- Writes the summary. -/
def close (w : Writer) (s : Summary) : Option Error × Writer :=
  match w.write? (Trace.summary s.steps s.halt.name (s.stop.map Stop.message) s.output) with
  | (true, w) => (none, w)
  | (false, w) => (some .summary, w)

/-- Ends the stream. -/
def finish (w : Writer) : Option Error :=
  if w.started then none else some .nothingWritten

/-- An observer that writes every step. -/
def observer : Observer Writer Error := fun n r w =>
  let (failure, w) := w.step n r
  { state := w, failure }

end Writer

end TapeMachine.Trace
