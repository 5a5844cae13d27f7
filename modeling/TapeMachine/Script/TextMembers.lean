/-
The functions of texts.

Texts are byte strings; places in them count bytes, and characters are what UTF-8 makes of them.

* `TextMembers.call` applies a function of a text by its name.
-/
import TapeMachine.Script.Library

namespace TapeMachine.Script.TextMembers

/-- The text of characters. -/
def ofChars (cs : List Char) : Bytes :=
  utf8 (String.ofList cs)

/-- The characters of a text. -/
def chars (s : Bytes) : List Char :=
  Utf8.replaceInvalid s

/-- Words with the first letter of each in its title form and all others small. -/
def titleCase (afterLetter : Bool) : List Char → List Char
  | [] => []
  | c :: rest =>
    let c := if afterLetter then Case.lower c else Case.title c
    c :: titleCase (Case.isCased c) rest

/-- Whether every word begins with a capital and goes on with small letters; `seen` tells whether there was
a letter, `inWord` whether the character before was one. -/
def isTitle (seen inWord : Bool) : List Char → Bool
  | [] => seen
  | c :: rest =>
    let small := Case.upper c ≠ c && Case.title c ≠ c
    if 'A' ≤ c && c ≤ 'Z' || Case.title c = c && Case.upper c ≠ c then !inWord && isTitle true true rest
    else if small then inWord && isTitle true true rest
    else if Case.lower c ≠ c then false
    else isTitle seen false rest

/-- The first place of a part in a text, counted on from `i`. -/
def findFrom? (part : Bytes) (i : Nat) : Bytes → Option Nat
  | [] => if part.isEmpty then some i else none
  | b :: rest => if part.isPrefixOf (b :: rest) then some i else findFrom? part (i + 1) rest

/-- The place of a part in a text, the first one or the last. -/
def find? (part : Bytes) (last : Bool) (s : Bytes) : Option Nat :=
  if last then (findFrom? part.reverse 0 s.reverse).map (s.length - part.length - ·)
  else findFrom? part 0 s

/-- The number of times that a part stands in a text, not overlapping itself. -/
def count (part : Bytes) : Nat → Bytes → Nat
  | 0, _ => 0
  | fuel + 1, s =>
    match find? part false s with
    | some i => count part fuel (s.drop (i + part.length)) + 1
    | none => 0

/-- Cuts a text at a separator, at most `n` times. -/
def cutAt (sep : Bytes) : Nat → Bytes → List Bytes
  | 0, s => [s]
  | n + 1, s =>
    match find? sep false s with
    | some i => s.take i :: cutAt sep n (s.drop (i + sep.length))
    | none => [s]

/-- Whether a rune is white space. -/
def isBlank (r : Rune) : Bool :=
  Utf8.isBlankRune r

/-- The words between white space, at most `n` times cut off from the left; the rest stays as it is. -/
def words : Nat → List Rune → List (List Rune)
  | n, rs =>
    let rs := rs.dropWhile isBlank
    match rs, n with
    | [], _ => []
    | rs, 0 => [rs]
    | rs, n + 1 =>
      let word := rs.takeWhile fun r => !isBlank r
      word :: words n (rs.drop word.length)

/-- Removes runes of a set from the left. -/
def stripLeft (isIn : Rune → Bool) (s : Bytes) : Bytes :=
  Utf8.encode ((Utf8.runes s).dropWhile isIn)

/-- Removes runes of a set from the right. -/
def stripRight (isIn : Rune → Bool) (s : Bytes) : Bytes :=
  Utf8.encode ((Utf8.runes s).reverse.dropWhile isIn).reverse

/-- Puts a text in the place of every part, at most `n` times. -/
def replace (part by' : Bytes) (n : Nat) (s : Bytes) : Bytes :=
  if part.isEmpty then
    let rs := Utf8.runes s
    let marked := rs.zipIdx.flatMap fun (r, i) => (if i < n then by' else []) ++ Utf8.encodeRune r
    marked ++ if rs.length < n then by' else []
  else Bytes.joinWith by' (cutAt part n s)

/-- The lines of a text, with or without their ends. -/
def lines (keepEnds : Bool) (s : Bytes) : List Bytes :=
  if s.isEmpty then []
  else
    let parts := s.lines
    let parts := if keepEnds then
        (parts.dropLast.map (· ++ [10])) ++ parts.getLast?.toList
      else parts
    if s.getLast? = some 10 then parts.dropLast else parts

/-- The part of a text between two places. -/
def within (name : String) (s : Bytes) (low high : Option Value) : Work (Nat × Bytes) := do
  let (first, stop) ← Arguments.blaming (name ++ ": ")
    (Work.interval s.length (low.getD .none) (high.getD .none))
  return (first, (s.take stop).drop first)

/-- Looks for a part in a text. -/
def search (name : String) (last must : Bool) (s : Bytes) (a : Arguments) : Work Value := do
  let vs ← a.inOrder name 1 3
  let part ← Arguments.nth name 1 Arguments.text (vs.headD .none)
  let (first, s) ← within name s vs[1]? vs[2]?
  match find? part last s with
  | some i => return .int (first + i : Nat)
  | none => if must then complain (name ++ ": substring not found") else return .int (-1)

/-- Whether a text begins or ends with a part, or with one of several. -/
def borders (name : String) (test : Bytes → Bytes → Bool) (s : Bytes) (a : Arguments) : Work Value := do
  let vs ← a.inOrder name 1 3
  let (_, s) ← within name s vs[1]? vs[2]?
  let rec anyOf : List (Value × Nat) → Work Bool
    | [] => return false
    | (.text part, _) :: rest => if test part s then return true else anyOf rest
    | (v, i) :: _ =>
      complain (name ++ ": want string, got " ++ v.typeName ++ ", for element " ++ decimal i)
  match vs.headD .none with
  | .text part => return .bool (test part s)
  | .tuple items => return .bool (← anyOf items.zipIdx)
  | v => complain (name ++ ": got " ++ v.typeName ++ ", want string or tuple of string")

/-- Cuts a text in three at a separator. -/
def partition (name : String) (last : Bool) (s : Bytes) (a : Arguments) : Work Value := do
  let sep ← Arguments.nth name 1 Arguments.text (← Work.only name a)
  if sep.isEmpty then complain (name ++ ": empty separator")
  match find? sep last s with
  | some i => return .tuple [.text (s.take i), .text sep, .text (s.drop (i + sep.length))]
  | none => return .tuple (if last then [.text [], .text [], .text s] else [.text s, .text [], .text []])

/-- Cuts a text at a separator, or between words. -/
def split (name : String) (last : Bool) (s : Bytes) (a : Arguments) : Work Value := do
  let vs ← a.inOrder name 0 2
  let most := (← Arguments.nth? name 2 Arguments.whole vs).getD (-1)
  let n := if most < 0 then s.length + 1 else most.toNat
  let parts ← match vs.headD .none with
    | .none =>
      pure <| if last then
          ((words n (Utf8.runes s).reverse).map fun w => Utf8.encode w.reverse).reverse
        else (words n (Utf8.runes s)).map Utf8.encode
    | .text sep =>
      if sep.isEmpty then complain "split: empty separator"
      if last then
        let parts := cutAt sep (s.length + 1) s
        let joined := parts.length - n
        pure <| if joined = 0 then parts
          else Bytes.joinWith sep (parts.take joined) :: parts.drop joined
      else pure (cutAt sep n s)
    | v => complain ("split: got " ++ v.typeName ++ " for separator, want string")
  Work.newList (parts.map .text)

/-- Strips characters of a set from the ends of a text; white space if there is no set. -/
def strip (name : String) (left right : Bool) (s : Bytes) (a : Arguments) : Work Value := do
  let vs ← a.inOrder name 0 1
  let set := (← Arguments.nth? name 1 Arguments.text vs).getD []
  let set := Utf8.runes set
  let isIn (r : Rune) : Bool := if set.isEmpty then isBlank r else set.contains r
  let s := if left then stripLeft isIn s else s
  return .text (if right then stripRight isIn s else s)

/-- Joins texts. -/
def join (sep : Bytes) (a : Arguments) : Work Value := do
  let items ← Work.itemsOf "join" a
  let texts ← items.mapM fun
    | .text s => pure s
    | v => complain ("join: in list, want string, got " ++ v.typeName)
  return .text (Bytes.joinWith sep texts)

/-- Applies a function of a text that takes no arguments. -/
def plain (name : String) (a : Arguments) (f : Value) : Work Value := do
  let _ ← a.inOrder name 0 0
  return f

/-- Whether a text has characters, all of them of a kind. -/
def allChars (p : Char → Bool) (s : Bytes) : Value :=
  .bool (!s.isEmpty && (chars s).all p)

/-- Whether a text has letters, and a change of case leaves it as it is. -/
def isInCase (f : Char → Char) (s : Bytes) : Value :=
  .bool ((chars s).any Case.isCased && s = ofChars ((chars s).map f))

/-- Applies a function of a text by its name. -/
def call (s : Bytes) (name : String) (a : Arguments) : Work Value := do
  match name with
  | "capitalize" =>
    let cs := chars s
    plain name a (.text (ofChars ((cs.take 1).map Case.title ++ (cs.drop 1).map Case.lower)))
  | "codepoint_ords" => plain name a (.view .codepointOrds s)
  | "codepoints" => plain name a (.view .codepoints s)
  | "elem_ords" => plain name a (.view .elemOrds s)
  | "elems" => plain name a (.view .elems s)
  | "count" =>
    let vs ← a.inOrder name 1 3
    let part ← Arguments.nth name 1 Arguments.text (vs.headD .none)
    let (_, s) ← within name s vs[1]? vs[2]?
    return .int (if part.isEmpty then (Utf8.runes s).length + 1 else count part (s.length + 1) s)
  | "endswith" => borders name (fun part s => part.isSuffixOf s) s a
  | "startswith" => borders name (fun part s => part.isPrefixOf s) s a
  | "find" => search name false false s a
  | "index" => search name false true s a
  | "rfind" => search name true false s a
  | "rindex" => search name true true s a
  | "format" => return .text (← Work.lift (Format.fields (← get) s a.positional a.named))
  | "isalnum" => plain name a (allChars (fun c => isLetter c || isDecimalDigit c) s)
  | "isalpha" => plain name a (allChars isLetter s)
  | "isdigit" => plain name a (allChars isDecimalDigit s)
  | "isspace" => plain name a (allChars Utf8.isBlank s)
  | "islower" => plain name a (isInCase Case.lower s)
  | "isupper" => plain name a (isInCase Case.upper s)
  | "istitle" => plain name a (.bool (isTitle false false (chars s)))
  | "join" => join s a
  | "lower" => plain name a (.text (ofChars ((chars s).map Case.lower)))
  | "upper" => plain name a (.text (ofChars ((chars s).map Case.upper)))
  | "title" => plain name a (.text (ofChars (titleCase false (chars s))))
  | "lstrip" => strip name true false s a
  | "rstrip" => strip name false true s a
  | "strip" => strip name true true s a
  | "partition" => partition name false s a
  | "rpartition" => partition name true s a
  | "removeprefix" =>
    let part ← Arguments.nth name 1 Arguments.text (← Work.only name a)
    return .text (if part.isPrefixOf s then s.drop part.length else s)
  | "removesuffix" =>
    let part ← Arguments.nth name 1 Arguments.text (← Work.only name a)
    return .text (if part.isSuffixOf s then s.take (s.length - part.length) else s)
  | "replace" =>
    let vs ← a.inOrder name 2 3
    let part ← Arguments.nth name 1 Arguments.text (vs.headD .none)
    let by' ← Arguments.nth name 2 Arguments.text ((vs[1]?).getD .none)
    let most := (← Arguments.nth? name 3 Arguments.whole vs).getD (-1)
    return .text (replace part by' (if most < 0 then s.length + 2 else most.toNat) s)
  | "split" => split name false s a
  | "rsplit" => split name true s a
  | "splitlines" =>
    let vs ← a.inOrder name 0 1
    let keepEnds := (← Arguments.nth? name 1 Arguments.flag vs).getD false
    Work.newList ((lines keepEnds s).map .text)
  | _ => complain (Work.noMember (.text s) name)

end TapeMachine.Script.TextMembers
