/-
What the page shows of the messages of a stream.

For each message the script of the page draws the cells of its tape, then its output, and then the line about
the step or the end. If the message has no cells to go through the script fails, and the line stays as it was.

* `Screen` is what is drawn of a message;
* `Screen.receive?` is what the page does with a message, unless it fails.
-/
import TapeMachine.Text.Json
import TapeMachine.Web.Page

namespace TapeMachine.Web

/-- A cell that is drawn: its value, the sign below it, and whether it is marked. -/
structure Cell where
  value : Json
  sign : Char
  active : Bool

/-- What the line about a message is made of. -/
inductive Line where
  | step (step command position pc : Option Json)
  | halt (step reason fault : Option Json)

/-- What is drawn of a message. -/
structure Screen where
  cells : List Cell
  output : Option Json
  line : Line

namespace Screen

/-- Whether a script takes a member for true. -/
def isTrue : Option Json → Bool
  | none | some .null => false
  | some (.number n) => n ≠ 0
  | some (.text s) => s ≠ ""
  | some (.array _) | some (.object _) => true

/-- The sign below a cell: its character if that prints, else a dot. -/
def sign : Json → Char
  | .number n => if 32 ≤ n ∧ n ≤ 126 then Char.ofNat n.toNat else '·'
  | _ => '·'

/-- Whether a member is the number of a cell. -/
def isIndex (i : Nat) : Option Json → Bool
  | some (.number n) => n = i
  | _ => false

/-- Draws the cells of a message, which fails if its tape is no array. -/
def cells? (message : Json) : Option (List Cell) :=
  match message.member? "tape" with
  | some (.array items) =>
    some (items.zipIdx.map fun (value, i) => ⟨value, sign value, isIndex i (message.member? "pointer")⟩)
  | _ => none

/-- The line about a message. -/
def lineOf (message : Json) : Line :=
  if isTrue (message.member? "halt") then
    .halt (message.member? "step") (message.member? "halt") (message.member? "fault")
  else
    .step (message.member? "step") (message.member? "command") (message.member? "position")
      (message.member? "pc")

/-- Draws a message. The cells come first, also in a message of the end. -/
def receive? (text : String) : Option Screen := do
  let message ← Json.parse? text
  let cells ← cells? message
  return ⟨cells, message.member? "output", lineOf message⟩

end Screen

end TapeMachine.Web
