/-
Usage texts: one line per directive, sub directives below their parent.

In each table the lines are ordered by name. A directive with several names has one line, under the
first of them.

* `usage` is the text for a table.
-/
import TapeMachine.CommandLine.Executor

namespace TapeMachine.CommandLine

/-- Whether one byte string comes before another or equals it, compared byte by byte. -/
def bytesLe : Bytes → Bytes → Bool
  | [], _ => true
  | _ :: _, [] => false
  | a :: s, b :: t => a < b || a = b && bytesLe s t

/-- What the usage text holds for one name: the line and the lines below it. -/
structure UsageEntry where
  name : Bytes
  help : Help
  below : List Bytes

namespace UsageEntry

/-- The columns of a line before its description. -/
def descriptionColumn : Nat := 32

/-- Fills up with spaces to `width` characters. -/
def padTo (width : Nat) (line : Bytes) : Bytes :=
  line ++ List.replicate (width - (Utf8.runes line).length) 32

/-- The line of a directive: name, arguments, aliases and description. -/
def line (depth : Nat) (e : UsageEntry) : Bytes :=
  let head := List.replicate (2 * depth) 32 ++ e.name ++
    e.help.argNames.flatMap (fun arg => utf8 " <" ++ arg ++ utf8 ">") ++
    if e.help.aliases.isEmpty then []
    else utf8 " (" ++ Bytes.joinWith (utf8 ", ") e.help.aliases ++ utf8 ")"
  if e.help.description.isEmpty then head
  else padTo descriptionColumn head ++ 32 :: e.help.description

end UsageEntry

/-- The first entry of each directive. -/
def firstOfEach : List Nat → List UsageEntry → List UsageEntry
  | _, [] => []
  | seen, e :: rest =>
    if seen.contains e.help.id then firstOfEach seen rest
    else e :: firstOfEach (e.help.id :: seen) rest

/-- The lines of a table, from its entries. -/
def layout (depth : Nat) (entries : List UsageEntry) : List Bytes :=
  let sorted := entries.mergeSort fun a b => bytesLe a.name b.name
  (firstOfEach [] sorted).flatMap fun e => e.line depth :: e.below

mutual

/-- The entry of a directive under a name. -/
def Directive.entry {σ ε : Type} (depth : Nat) (name : Bytes) : Directive σ ε → UsageEntry
  | .mk help _ subs => { name, help, below := layout (depth + 1) (tableEntries (depth + 1) subs) }

/-- The entries of a table, names bound to nothing left out. -/
def tableEntries {σ ε : Type} (depth : Nat) :
    List (Bytes × Option (Directive σ ε)) → List UsageEntry
  | [] => []
  | (_, none) :: rest => tableEntries depth rest
  | (name, some d) :: rest => d.entry depth name :: tableEntries depth rest

end

/-- The usage text of a table. -/
def usage {σ ε : Type} (table : Table σ ε) : Bytes :=
  (layout 0 (tableEntries 0 table)).flatMap (· ++ [10])

end TapeMachine.CommandLine
