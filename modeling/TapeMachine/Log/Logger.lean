/-
Loggers: entries in the order in which they were written, and spans.

A span names one run in the log; it is added to every entry written under it, and to errors, so that
a failure can be found in the log. Fresh names come from a supply.

* `Logger.write` keeps an entry if its level is high enough;
* `Logger.note` writes a text between the entries;
* `Logger.lines` is the log as text;
* `Logger.newSpan` draws a name for a new span;
* `Log.wrapSpan` adds the span to an error.
-/
import TapeMachine.Log.Line

namespace TapeMachine.Log

/-- The name of a span; the empty name stands for no span. -/
abbrev Span := Bytes

/-- What is written to where the log goes: an entry, or a text that is none. -/
inductive Record where
  | entry (e : Entry)
  | note (text : Bytes)

/-- The line of a record. -/
def Record.line : Record → Bytes
  | entry e => e.line
  | note text => text

/-- The entry of a record, if it is one. -/
def Record.entry? : Record → Option Entry
  | entry e => some e
  | note _ => none

/-- A log that takes entries from a level on. -/
structure Logger where
  threshold : Level
  /-- The supply of span names. -/
  spanName : Nat → Span
  /-- How many span names were drawn. -/
  drawn : Nat := 0
  /-- What was written, newest first. -/
  written : List Record := []

namespace Logger

/-- What was written, in order. -/
def lines (l : Logger) : List Bytes :=
  l.written.reverse.map Record.line

/-- The lines of the entries, in the order in which they were written. -/
def entries (l : Logger) : List Bytes :=
  (l.written.reverse.filterMap Record.entry?).map Entry.line

/-- Writes an entry under a span. -/
def writeEntry (l : Logger) (span : Span) (e : Entry) : Logger :=
  if e.level < l.threshold then l
  else
    let attrs := if span.isEmpty then e.attrs else e.attrs ++ [(utf8 "span", .text span)]
    { l with written := .entry { e with attrs } :: l.written }

/-- Writes a message with attributes under a span. -/
def write (l : Logger) (span : Span) (level : Level) (message : String) (attrs : List (String × Value)) :
    Logger :=
  l.writeEntry span { level, message := utf8 message, attrs := attrs.map fun (k, v) => (utf8 k, v) }

/-- Writes a text that is no entry to where the log goes. -/
def note (l : Logger) (text : Bytes) : Logger :=
  { l with written := .note text :: l.written }

/-- Begins a span under a parent, which may be none. -/
def newSpan (l : Logger) (parent : Span) (what : Bytes) : Span × Logger :=
  let span := l.spanName l.drawn
  let l := { l with drawn := l.drawn + 1 }
  let attrs := ("what", Value.text what) ::
    if parent.isEmpty then [] else [("parent", .text parent)]
  (span, l.write span .debug "new span" attrs)

end Logger

/-- The message of an error with the span it happened under. -/
def wrapSpan (span : Span) (message : Bytes) : Bytes :=
  if span.isEmpty then message else message ++ utf8 "\nspan: " ++ span

end TapeMachine.Log
