/-
A line of text that is being edited.

The text is kept as what stands before the cursor, last character first, and what stands behind it.

* `Prompt.insert` types characters;
* `Prompt.backspace`, `Prompt.delete`, `Prompt.left`, `Prompt.right`, `Prompt.home`, `Prompt.toEnd` edit;
* `Prompt.wordLeft`, `Prompt.wordRight`, `Prompt.deleteWordLeft`, `Prompt.deleteWordRight?` take words;
* `Prompt.edit?` does what a key does.
-/
import TapeMachine.Text.Utf8
import TapeMachine.Viewer.Key

namespace TapeMachine.Viewer

/-- A text with a cursor. -/
structure Prompt where
  before : List Char := []
  behind : List Char := []
deriving DecidableEq, Repr

namespace Prompt

/-- The text. -/
def value (p : Prompt) : List Char :=
  p.before.reverse ++ p.behind

/-- What a typed character stands for: line breaks and tabs are spaces, and other control characters
nothing. -/
def typed? (c : Char) : Option Char :=
  let n := c.toNat
  if c = '\n' || c = '\r' || c = '\t' then some ' '
  else if n < 0x20 || 0x7F ≤ n && n ≤ 0x9F || c = Utf8.replacement then none
  else some c

/-- Types characters at the cursor. -/
def insert (p : Prompt) (cs : List Char) : Prompt :=
  { p with before := (cs.filterMap typed?).reverse ++ p.before }

/-- Deletes the character before the cursor. -/
def backspace (p : Prompt) : Prompt :=
  { p with before := p.before.drop 1 }

/-- Deletes the character behind the cursor. -/
def delete (p : Prompt) : Prompt :=
  { p with behind := p.behind.drop 1 }

/-- Moves the cursor left over `n` characters. -/
def moveLeft (p : Prompt) (n : Nat) : Prompt where
  before := p.before.drop n
  behind := (p.before.take n).reverse ++ p.behind

/-- Moves the cursor right over `n` characters. -/
def moveRight (p : Prompt) (n : Nat) : Prompt where
  before := (p.behind.take n).reverse ++ p.before
  behind := p.behind.drop n

/-- Moves the cursor left. -/
def left (p : Prompt) : Prompt :=
  p.moveLeft 1

/-- Moves the cursor right. -/
def right (p : Prompt) : Prompt :=
  p.moveRight 1

/-- Moves the cursor to the start. -/
def home (p : Prompt) : Prompt :=
  p.moveLeft p.before.length

/-- Moves the cursor to the end. -/
def toEnd (p : Prompt) : Prompt :=
  p.moveRight p.behind.length

/-- The number of blanks that a text begins with, and of the characters of the word behind them. -/
def wordSpan (cs : List Char) : Nat × Nat :=
  let (blanks, rest) := cs.span Utf8.isBlank
  (blanks.length, (rest.takeWhile fun c => !Utf8.isBlank c).length)

/-- Moves the cursor to the start of a word. -/
def wordLeft (p : Prompt) : Prompt :=
  let (blanks, word) := wordSpan p.before
  p.moveLeft (blanks + word)

/-- Moves the cursor to the end of a word. -/
def wordRight (p : Prompt) : Prompt :=
  let (blanks, word) := wordSpan p.behind
  p.moveRight (blanks + word)

/-- Deletes to the start of a word; a single blank at the start of the text goes with the word. -/
def deleteWordLeft (p : Prompt) : Prompt :=
  let (blanks, word) := wordSpan p.before
  let rest := p.before.drop (blanks + word)
  { p with before := if rest.length = 1 then [] else rest }

/-- Deletes one character, and then to the end of a word. There has to be a character where the word is
looked for, or nothing at all to delete. -/
def deleteWordRight? (p : Prompt) : Option Prompt :=
  match p.behind with
  | [] => some p
  | [_] => none
  | _ :: behind =>
    let (blanks, word) := wordSpan behind
    some { p with behind := behind.drop (blanks + word) }

/-- Does what a key does: those that are bound move the cursor and delete text, and all others type their
characters. -/
def edit? (p : Prompt) (k : KeyPress) : Option Prompt :=
  match k.name with
  | "alt+backspace" | "ctrl+w" => some p.deleteWordLeft
  | "backspace" | "ctrl+h" => some p.backspace
  | "alt+left" | "ctrl+left" | "alt+b" => some p.wordLeft
  | "left" | "ctrl+b" => some p.left
  | "alt+right" | "ctrl+right" | "alt+f" => some p.wordRight
  | "right" | "ctrl+f" => some p.right
  | "home" | "ctrl+a" => some p.home
  | "delete" | "ctrl+d" => some p.delete
  | "end" | "ctrl+e" => some p.toEnd
  | "ctrl+k" => some { p with behind := [] }
  | "ctrl+u" => some { p with before := [] }
  | "alt+delete" | "alt+d" => p.deleteWordRight?
  | "up" | "ctrl+p" | "down" | "ctrl+n" | "ctrl+v" => some p
  | _ =>
    match k.key with
    | .characters cs _ => some (p.insert cs)
    | .space => some (p.insert [' '])
    | _ => some p

end Prompt

end TapeMachine.Viewer
