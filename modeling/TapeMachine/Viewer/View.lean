/-
What the viewer shows.

* `View.programWindow` and `View.tapeWindow` are the parts of the program and of the tape that are shown;
* `Model.spans` is the screen as styled pieces of text: the command at the program counter and the cell at
  the pointer are the selected ones;
* `Model.viewWith` is the screen as a renderer draws it, `Model.view` the one without colours.
-/
import TapeMachine.Display.Tape
import TapeMachine.Text.Duration
import TapeMachine.Viewer.Help
import TapeMachine.Viewer.Model

namespace TapeMachine.Viewer

/-- How a piece of text stands out. -/
inductive Style where
  | plain
  | title
  | label
  | selected
  | dim
  | output
  | error
deriving DecidableEq, Repr

/-- A piece of text in one style. -/
structure Span where
  style : Style
  content : String
deriving DecidableEq, Repr

/-- What draws a text in a style. -/
structure Renderer where
  draw : Style → String → String

namespace Span

/-- A piece of text as a renderer draws it; text of no style is not drawn by it. -/
def drawn (r : Renderer) (s : Span) : String :=
  match s.style with
  | .plain => s.content
  | style => r.draw style s.content

/-- The characters of a text, with four spaces for every tab. -/
def untabbed (text : String) : List Char :=
  text.toList.flatMap fun c => if c = '\t' then List.replicate 4 ' ' else [c]

/-- The lines of a text in which tabs are four spaces. -/
def lines (text : String) : List String :=
  ((untabbed text).splitOn '\n').map String.ofList

/-- A text in a block: tabs are four spaces, and all lines are as wide as the widest. -/
def block (text : String) : String :=
  "\n".intercalate ((lines text).map (padRight (Help.widest (lines text))))

end Span

/-- The renderer that has no colours: every text is a block, and a title stands between spaces. -/
def Renderer.uncoloured : Renderer where
  draw
    | .title, text => " " ++ Span.block text ++ " "
    | _, text => Span.block text

namespace View

/-- The number of commands shown around the program counter. -/
def programWidth : Nat := 64

/-- The commands that are shown: the first one, and the one behind the last. -/
def programWindow (pc length : Nat) : Nat × Nat :=
  let start := pc - programWidth / 2
  (start, min (start + programWidth) length)

/-- The cells that are shown, so that the pointer is one of them: the first one, and the one behind the
last. Zero, negative numbers and numbers past the end all mean the whole tape. -/
def tapeWindow (cells : Int) (pointer length : Nat) : Nat × Nat :=
  let cells := if cells ≤ 0 ∨ length < cells then length else cells.toNat
  let first := if cells ≤ pointer then pointer - cells + 1 else 0
  (first, first + cells)

/-- Text of no style. -/
def plain (text : String) : Span := ⟨.plain, text⟩

/-- What stands for commands that are not shown. -/
def ellipsis : Span := ⟨.dim, "…"⟩

/-- The first line. -/
def header (m : Model) : List Span :=
  [⟨.title, "tapeworm"⟩,
    plain ("  step " ++ decimal m.machine.steps ++ "  " ++ (if m.playing then "playing" else "paused") ++
      "  delay " ++ Duration.text m.delay ++ "\n\n")]

/-- The commands that are shown, the one at the program counter selected. -/
def commands (p : Program) (pc : Nat) : List Span :=
  let (start, stop) := programWindow pc p.length
  (List.range' start (stop - start)).filterMap fun i =>
    (p.at? i).map fun c => ⟨if i = pc then .selected else .plain, c.symbol⟩

/-- The line of the program. -/
def programLine (p : Program) (pc : Nat) : List Span :=
  let (start, stop) := programWindow pc p.length
  [⟨.label, "program "⟩] ++ (if 0 < start then [ellipsis] else []) ++ commands p pc ++
    (if stop < p.length then [ellipsis] else []) ++ [plain "\n\n"]

/-- A row of three columns for each cell that is shown: how it stands out, and its text. -/
def row (s : State) (window : Nat × Nat) (style : Nat → Style) (text : Nat → UInt8 → String) : List Span :=
  let (first, last) := window
  ((List.range' first (last - first)).map fun i => (⟨style i, padLeft 3 (text i (s.tape.cell i))⟩ : Span))
    |>.intersperse (plain " ")

/-- The cell at the pointer is selected. -/
def selectsPointer (s : State) (i : Nat) : Style :=
  if i = s.pointer then .selected else .plain

/-- The values, characters and places of the cells that are shown. -/
def tapeRows (s : State) (cells : Int) : List Span :=
  let window := tapeWindow cells s.pointer s.tape.length
  [⟨.label, "tape    "⟩] ++
    row s window (selectsPointer s) (fun _ b => decimal b.toNat) ++ [plain "\n        "] ++
    row s window (selectsPointer s) (fun _ b => String.singleton (Display.cellChar b)) ++ [plain "\n        "] ++
    row s window (fun _ => .dim) (fun i _ => decimal (i % 1000)) ++ [plain "\n\n"]

/-- The output so far, and how much input is left. -/
def outputLines (m : Machine) : List Span :=
  [⟨.label, "output  "⟩, ⟨.output, Display.output m.output⟩, plain "\n", ⟨.label, "pending "⟩,
    plain (decimal m.pending ++ " byte(s)\n\n")]

/-- The status of the machine: a fault, its end, or the latest step. -/
def status (m : Model) : List Span :=
  match m.machine.fault with
  | some f => [⟨.error, "faulted: " ++ f.message⟩, plain "\n\n"]
  | none =>
    if m.machine.done then [⟨.output, "program ended"⟩, plain "\n\n"]
    else match m.last with
      | some r => [⟨.dim, "last: [" ++ r.command.symbol ++ "] at " ++ decimal r.position⟩, plain "\n\n"]
      | none => []

/-- The open prompt. An empty one shows the first character of its hint under the cursor; at the end of a
text the cursor is a space. -/
def prompt (p : Prompt) : Span :=
  plain ("input> " ++
    if p.value.isEmpty then "b"
    else String.ofList p.value ++ if p.behind.isEmpty then " " else "")

/-- What stands at the bottom: the prompt or the help text. -/
def footer (m : Model) : List Span :=
  if m.inputting then
    [prompt m.prompt, plain "\n"] ++
      (match m.inputError with
        | some rest => [⟨.error, String.ofList (Utf8.replaceInvalid (Escapes.message rest))⟩, plain "\n"]
        | none => []) ++
      [⟨.dim, "enter feed • esc cancel"⟩, plain "\n"]
  else
    [plain (if m.showAll then "\n".intercalate (Help.long m.width) else Help.short m.width), plain "\n"]

end View

/-- The screen, from the top to the bottom. -/
def Model.spans (m : Model) : List Span :=
  View.header m ++ View.programLine m.machine.program m.machine.state.pc ++
    View.tapeRows m.machine.state m.cells ++ View.outputLines m.machine ++ View.status m ++ View.footer m

/-- The screen as a renderer draws it. -/
def Model.viewWith (r : Renderer) (m : Model) : String :=
  String.join (m.spans.map (Span.drawn r))

/-- The screen without colours. -/
def Model.view (m : Model) : String :=
  m.viewWith .uncoloured

end TapeMachine.Viewer
