/-
The help text of the viewer, in one line or in columns.

In a narrow window an ellipsis stands for what does not fit, if there is room for it.

* `Help.short` is the line;
* `Help.long` is the lines of the columns.
-/
import TapeMachine.Text.Bytes
import TapeMachine.Viewer.Key

namespace TapeMachine.Viewer.Help

/-- What stands between the items of the line. -/
def separator : String := " • "

/-- What stands for what does not fit. -/
def tail : String := " …"

/-- The spaces between columns. -/
def gap : Nat := 4

/-- Whether an item is left out and the tail written in its place: it does not fit, and the tail does. -/
def cutsOff (width : Int) (total item : Nat) : Bool :=
  0 < width && width < total + item && total + tail.length < width

/-- The items of the line, from the one on that stands behind `total` columns. -/
def shortFrom (width : Int) (total : Nat) : List Binding → String
  | [] => ""
  | b :: rest =>
    let item := (if 0 < total then separator else "") ++ b.label ++ " " ++ b.description
    if cutsOff width total item.length then tail
    else item ++ shortFrom width (total + item.length) rest

/-- The help text in one line. -/
def short (width : Int) : String :=
  shortFrom width 0 Binding.short

/-- The length of the longest text. -/
def widest (texts : List String) : Nat :=
  (texts.map String.length).foldl max 0

/-- The lines of a column behind `left` spaces: labels and descriptions, each as wide as the widest. -/
def columnLines (left : Nat) (column : List Binding) : List String :=
  let labels := widest (column.map (·.label))
  let descriptions := widest (column.map (·.description))
  column.map fun b => spaces left ++ padRight labels b.label ++ " " ++ padRight descriptions b.description

/-- The columns that fit, from the one on that stands behind `total` columns of text. -/
def columnsFrom (width : Int) (total : Nat) : List (List Binding) → List (List String)
  | [] => []
  | column :: rest =>
    let lines := columnLines (if 0 < total then gap else 0) column
    let size := widest lines
    if cutsOff width total size then [[tail]]
    else lines :: columnsFrom width (total + size) rest

/-- Columns beside each other, shorter ones filled up with blank lines. -/
def beside (columns : List (List String)) : List String :=
  let height := (columns.map List.length).foldl max 0
  (List.range height).map fun i =>
    String.join (columns.map fun lines => padRight (widest lines) (lines.getD i ""))

/-- The lines of the help text in columns. -/
def long (width : Int) : List String :=
  beside (columnsFrom width 0 Binding.columns)

end TapeMachine.Viewer.Help
