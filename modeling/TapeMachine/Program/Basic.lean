/-
Loaded programs.

A source text is any byte string; the eight command bytes in it are the program and all else is
comment. Loading keeps for each command its offset in the source and resolves the brackets.

* `Program.load` accepts a source iff its brackets are balanced;
* `Unmatched` names the bracket to blame: the first closing one without a partner, else the oldest
  open one.
-/
import TapeMachine.Program.Command

namespace TapeMachine

/-- The position of a command in its program and the offset of its byte in the source. -/
structure Place where
  position : Nat
  offset : Nat
deriving DecidableEq, Repr

/-- A bracket without a partner. -/
inductive Unmatched where
  /-- The oldest `[` left open at the end of the source. -/
  | openBracket (place : Place)
  /-- A `]` seen while no `[` was open. -/
  | closeBracket (place : Place)
deriving DecidableEq, Repr

namespace Unmatched

/-- Where the bracket stands. -/
def place : Unmatched → Place
  | openBracket p => p
  | closeBracket p => p

/-- The message of a loading error. -/
def message : Unmatched → String
  | openBracket p =>
    "unmatched '[' at position " ++ decimal p.position ++ " (offset " ++ decimal p.offset ++ ")"
  | closeBracket p =>
    "unmatched ']' at position " ++ decimal p.position ++ " (offset " ++ decimal p.offset ++ ")"

end Unmatched

/-- A command sequence with the source offset of each command and the partner of each bracket. -/
structure Program where
  commands : Array Command
  offsets : Array Nat
  partners : Array (Option Nat)
deriving Repr, DecidableEq

namespace Program

/-- The commands of a source text, each with its offset. -/
def scan (src : Bytes) : List (Command × Nat) :=
  src.zipIdx.filterMap fun (b, i) => (Command.ofByte? b).map (·, i)

/-- Resolves the brackets of the commands from position `pos` on, where `pending` holds the places of
the open brackets, newest first, and `partners` the partners found so far. -/
def matchBrackets : List (Command × Nat) → Nat → List Place → Array (Option Nat) →
    Except Unmatched (Array (Option Nat))
  | [], _, pending, partners =>
    match pending.getLast? with
    | none => .ok partners
    | some oldest => .error (.openBracket oldest)
  | (c, offset) :: rest, pos, pending, partners =>
    match c with
    | .loopStart => matchBrackets rest (pos + 1) (⟨pos, offset⟩ :: pending) partners
    | .loopEnd =>
      match pending with
      | [] => .error (.closeBracket ⟨pos, offset⟩)
      | opening :: older =>
        matchBrackets rest (pos + 1) older
          ((partners.setIfInBounds opening.position (some pos)).setIfInBounds pos
            (some opening.position))
    | _ => matchBrackets rest (pos + 1) pending partners

/-- Loads a source text. -/
def load (src : Bytes) : Except Unmatched Program := do
  let scanned := scan src
  let partners ← matchBrackets scanned 0 [] (Array.replicate scanned.length none)
  return {
    commands := (scanned.map (·.1)).toArray
    offsets := (scanned.map (·.2)).toArray
    partners }

/-- The number of commands. -/
def length (p : Program) : Nat :=
  p.commands.size

/-- The command at a position inside the program. -/
def at? (p : Program) (pos : Nat) : Option Command :=
  p.commands[pos]?

/-- The source offset of the command at a position inside the program. -/
def offset? (p : Program) (pos : Nat) : Option Nat :=
  p.offsets[pos]?

/-- The matching bracket of the bracket at a position. -/
def partner? (p : Program) (pos : Nat) : Option Nat :=
  p.partners[pos]?.join

/-- The pairs of a bracket position and its partner, in the order of positions. -/
def jumpTable (p : Program) : List (Nat × Nat) :=
  p.partners.toList.zipIdx.filterMap fun (partner, pos) => partner.map (pos, ·)

/-- The command bytes of the program. -/
def source (p : Program) : Bytes :=
  p.commands.toList.map Command.toByte

end Program

end TapeMachine
