/-
Patterns of texts, as regular expressions.

A pattern is met by a part of a text. The parts that meet it are found by the places where they end: from a
place, a pattern leads to a set of places, and a pattern that is repeated leads to those that repeated steps
reach. So no text takes more than a number of steps that grows with a power of its length.

* `Pattern.parse?` reads a regular expression;
* `Pattern.ends` are the places at which parts that begin at a place end;
* `Pattern.occursIn` decides whether a part of a text meets a pattern.
-/
namespace TapeMachine

/-- A set of characters: those in ranges, or those in none of them. -/
structure CharacterClass where
  ranges : List (Char × Char)
  negated : Bool := false
deriving DecidableEq, Repr

namespace CharacterClass

/-- Whether a character is in a class. -/
def contains (c : CharacterClass) (x : Char) : Bool :=
  (c.ranges.any fun (low, high) => low ≤ x && x ≤ high) != c.negated

/-- One character. -/
def single (c : Char) : CharacterClass := ⟨[(c, c)], false⟩

/-- All characters but the line break. -/
def anyInLine : CharacterClass := ⟨[('\n', '\n')], true⟩

/-- The ranges of digits. -/
def digits : List (Char × Char) := [('0', '9')]

/-- The ranges of characters of words. -/
def words : List (Char × Char) := [('0', '9'), ('A', 'Z'), ('_', '_'), ('a', 'z')]

/-- The ranges of blanks. -/
def blanks : List (Char × Char) := [('\t', '\n'), ('\x0c', '\r'), (' ', ' ')]

/-- The class with a letter behind a backslash. -/
def named? : Char → Option CharacterClass
  | 'd' => some ⟨digits, false⟩
  | 'D' => some ⟨digits, true⟩
  | 'w' => some ⟨words, false⟩
  | 'W' => some ⟨words, true⟩
  | 's' => some ⟨blanks, false⟩
  | 'S' => some ⟨blanks, true⟩
  | _ => none

end CharacterClass

/-- A pattern. -/
inductive Pattern where
  | empty
  /-- A character that is in one of some classes, or in none of them. -/
  | one (classes : List CharacterClass) (negated : Bool)
  /-- The start of the text. -/
  | start
  /-- The end of the text. -/
  | finish
  /-- A place between a character of a word and another one, or one that is not. -/
  | wordEdge (edge : Bool)
  | next (first second : Pattern)
  | either (left right : Pattern)
  /-- A pattern repeated at least and at most some times. -/
  | times (inner : Pattern) (least : Nat) (most : Option Nat)
deriving Repr

namespace Pattern

/-- Places without repetition. -/
def places (l : List Nat) : List Nat :=
  l.eraseDups

/-- The places that a number of steps lead to. -/
def steps (f : Nat → List Nat) : Nat → List Nat → List Nat
  | 0, l => l
  | n + 1, l => steps f n (places (l.flatMap f))

/-- The places that at most a number of steps lead to; no more are made when nothing is added. -/
def upToSteps (f : Nat → List Nat) : Nat → List Nat → List Nat
  | 0, l => l
  | n + 1, l =>
    let more := places (l ++ l.flatMap f)
    if more.length = l.length then l else upToSteps f n more

/-- Whether there is a character of a word at a place. -/
def isWordAt (text : Array Char) (i : Nat) : Bool :=
  (text[i]?).any fun c => CharacterClass.contains ⟨CharacterClass.words, false⟩ c

/-- The places at which parts of a text end that begin at a place and meet a pattern. -/
def ends (text : Array Char) : Pattern → Nat → List Nat
  | empty, i => [i]
  | one classes negated, i =>
    match text[i]? with
    | some c => if (classes.any (·.contains c)) != negated then [i + 1] else []
    | none => []
  | start, i => if i = 0 then [i] else []
  | finish, i => if i = text.size then [i] else []
  | wordEdge edge, i =>
    let before := i ≠ 0 && isWordAt text (i - 1)
    if (before != isWordAt text i) == edge then [i] else []
  | next first second, i => places ((ends text first i).flatMap (ends text second))
  | either left right, i => places (ends text left i ++ ends text right i)
  | times inner least most, i =>
    let begun := steps (ends text inner) least [i]
    match most with
    | some most => upToSteps (ends text inner) (most - least) begun
    | none => upToSteps (ends text inner) (text.size + 1) begun

/-- Whether a part of a text meets a pattern. -/
def occursIn (p : Pattern) (text : List Char) : Bool :=
  (List.range (text.length + 1)).any fun i => !(ends text.toArray p i).isEmpty

/-! ### Reading -/

/-- The largest number of repetitions. -/
def maxTimes : Nat := 1000

/-- The character that a letter behind a backslash stands for. -/
def control? : Char → Option Char
  | 'a' => some '\x07'
  | 'f' => some '\x0c'
  | 'n' => some '\n'
  | 'r' => some '\r'
  | 't' => some '\t'
  | 'v' => some '\x0b'
  | c => if c.toNat < 128 && !c.isAlphanum then some c else none

/-- The value of a hexadecimal digit. -/
def hexDigit? (c : Char) : Option Nat :=
  if c.isDigit then some (c.toNat - 48)
  else
    let n := c.toLower.toNat
    if 97 ≤ n && n ≤ 102 then some (n - 87) else none

/-- A character by its number in hexadecimal digits. -/
def codePoint? (digits : List Char) : Option Char := do
  let n ← digits.foldlM (fun n c => (hexDigit? c).map (n * 16 + ·)) 0
  if digits.isEmpty || 8 < digits.length || !n.isValidChar then none else some (Char.ofNat n)

/-- The character behind a backslash, and what follows. -/
def escaped? : List Char → Option (Char × List Char)
  | 'x' :: '\x7b' :: rest => do
    let (digits, rest) := rest.span (· ≠ '\x7d')
    if rest.isEmpty then none else return (← codePoint? digits, rest.drop 1)
  | 'x' :: a :: b :: rest => do return (← codePoint? [a, b], rest)
  | c :: rest => (control? c).map fun c => (c, rest)
  | [] => none

/-- Digits as a number of repetitions, and what follows. -/
def count? (cs : List Char) : Option (Nat × List Char) :=
  let (digits, rest) := cs.span Char.isDigit
  if digits.isEmpty || 5 < digits.length then none
  else some (digits.foldl (fun n c => n * 10 + (c.toNat - 48)) 0, rest)

/-- Numbers of repetitions in braces behind the opening one, and what follows. -/
def counts? (cs : List Char) : Option ((Nat × Option Nat) × List Char) := do
  let (least, rest) ← count? cs
  match rest with
  | '\x7d' :: rest => some ((least, some least), rest)
  | ',' :: '\x7d' :: rest => some ((least, none), rest)
  | ',' :: rest =>
    match count? rest with
    | some (most, '\x7d' :: rest) => some ((least, some most), rest)
    | _ => none
  | _ => none

/-- The sign of a repetition at the start of a text, and what follows. -/
def repetition? : List Char → Option ((Nat × Option Nat) × List Char)
  | '*' :: rest => some ((0, none), rest)
  | '+' :: rest => some ((1, none), rest)
  | '?' :: rest => some ((0, some 1), rest)
  | '\x7b' :: rest => counts? rest
  | _ => none

/-- The character at the start of a class, and what follows. -/
def classChar? : List Char → Option (Char × List Char)
  | '\\' :: rest => escaped? rest
  | c :: rest => some (c, rest)
  | [] => none

/-- The classes in brackets behind the opening one, and what follows the closing one. -/
def classes? : Nat → Bool → List Char → Option (List CharacterClass × List Char)
  | 0, _, _ => none
  | fuel + 1, first, cs =>
    match cs with
    | [] => none
    | c :: rest =>
      if c = ']' && !first then some ([], rest)
      else
        let named := match cs with
          | '\\' :: d :: _ => CharacterClass.named? d
          | _ => none
        match named with
        | some k => do
          let (more, rest) ← classes? fuel false (rest.drop 1)
          return (k :: more, rest)
        | none => do
          let (low, rest) ← classChar? cs
          let (high, rest) ← match rest with
            | '-' :: d :: more => if d = ']' then some (low, rest) else classChar? (d :: more)
            | _ => some (low, rest)
          if high < low then none
          else
            let (more, rest) ← classes? fuel false rest
            return (⟨[(low, high)], false⟩ :: more, rest)

/-- Passes over the start of a group behind its parenthesis: what gives it a name or none. -/
def groupStart? : List Char → Option (List Char)
  | '?' :: ':' :: rest => some rest
  | '?' :: 'P' :: '<' :: rest => some ((rest.dropWhile (· ≠ '>')).drop 1)
  | '?' :: '<' :: rest => some ((rest.dropWhile (· ≠ '>')).drop 1)
  | '?' :: _ => none
  | rest => some rest

mutual

/-- Reads patterns with bars between them. -/
def alternatives? (fuel : Nat) (cs : List Char) : Option (Pattern × List Char) :=
  match fuel with
  | 0 => none
  | fuel + 1 => do
    let (first, rest) ← sequence? fuel cs
    match rest with
    | '|' :: rest =>
      let (second, rest) ← alternatives? fuel rest
      return (.either first second, rest)
    | rest => return (first, rest)

/-- Reads patterns that follow each other. -/
def sequence? (fuel : Nat) (cs : List Char) : Option (Pattern × List Char) :=
  match fuel with
  | 0 => none
  | fuel + 1 =>
    match cs with
    | [] => some (.empty, [])
    | '|' :: _ => some (.empty, cs)
    | ')' :: _ => some (.empty, cs)
    | _ => do
      let (first, rest) ← repeated? fuel cs
      let (second, rest) ← sequence? fuel rest
      return (.next first second, rest)

/-- Reads a pattern with its repetition. A repetition cannot be repeated. -/
def repeated? (fuel : Nat) (cs : List Char) : Option (Pattern × List Char) :=
  match fuel with
  | 0 => none
  | fuel + 1 => do
    let (inner, rest) ← single? fuel cs
    match repetition? rest with
    | none => return (inner, rest)
    | some ((least, most), rest) =>
      let rest := if rest.head? = some '?' then rest.drop 1 else rest
      if (repetition? rest).isSome || maxTimes < max least (most.getD 0) || most.any (· < least) then none
      else return (.times inner least most, rest)

/-- Reads a pattern without repetition. -/
def single? (fuel : Nat) (cs : List Char) : Option (Pattern × List Char) :=
  match fuel with
  | 0 => none
  | fuel + 1 =>
    match cs with
    | '(' :: rest => do
      let (inner, rest) ← alternatives? fuel (← groupStart? rest)
      match rest with
      | ')' :: rest => return (inner, rest)
      | _ => none
    | '[' :: '^' :: rest => (classes? (rest.length + 1) true rest).map fun (k, rest) => (.one k true, rest)
    | '[' :: rest => (classes? (rest.length + 1) true rest).map fun (k, rest) => (.one k false, rest)
    | '.' :: rest => some (.one [.anyInLine] false, rest)
    | '^' :: rest => some (.start, rest)
    | '$' :: rest => some (.finish, rest)
    | '\\' :: 'A' :: rest => some (.start, rest)
    | '\\' :: 'z' :: rest => some (.finish, rest)
    | '\\' :: 'b' :: rest => some (.wordEdge true, rest)
    | '\\' :: 'B' :: rest => some (.wordEdge false, rest)
    | '\\' :: c :: rest =>
      match CharacterClass.named? c with
      | some k => some (.one [k] false, rest)
      | none => (escaped? (c :: rest)).map fun (c, rest) => (.one [.single c] false, rest)
    | c :: rest =>
      if c = '*' || c = '+' || c = '?' || c = '\\' then none else some (.one [.single c] false, rest)
    | [] => none

end

/-- Reads a regular expression. -/
def parse? (text : String) : Option Pattern :=
  match alternatives? (4 * text.length + 4) text.toList with
  | some (p, []) => some p
  | _ => none

end Pattern

end TapeMachine
