/-
Names in settings files.

A name stands for a field, a local term or a variable of a comprehension of the innermost record that makes
it known, or for one of the values and functions that every file has. Quoted labels are not names.

* `Scope.known` are the names that every file has;
* `Scope.uses?` gives the names that a term takes from outside, if all names in it stand for something, the
  names of local terms are used, and preferred values stand only in choices.
-/
import TapeMachine.Config.Value

namespace TapeMachine.Config

namespace Scope

/-- Whole numbers from `low` to `high`. -/
def wholeRange (low high : Int) : Value :=
  .range [.int] [⟨.atLeast, .int low⟩, ⟨.atMost, .int high⟩]

/-- Whole numbers of some bits with a sign. -/
def signed (bits : Nat) : Value :=
  wholeRange (-(Nat.pow 2 (bits - 1) : Int)) ((Nat.pow 2 (bits - 1) : Int) - 1)

/-- Whole numbers of some bits without a sign. -/
def unsigned (bits : Nat) : Value :=
  wholeRange 0 ((Nat.pow 2 bits : Int) - 1)

/-- Numbers whose distance from zero is at most some number. -/
def upTo (limit : Nat) : Value :=
  .range Kind.numbers [⟨.atLeast, .float (-(limit : Int))⟩, ⟨.atMost, .float (limit : Int)⟩]

/-- The values that every file has. -/
def values : List (String × Value) :=
  [("_", .any), ("bool", .range [.bool] []), ("int", .range [.int] []), ("float", .range [.float] []),
    ("number", .range Kind.numbers []), ("string", .range [.text] []), ("bytes", .range [.bytes] []),
    ("uint", .range [.int] [⟨.atLeast, .int 0⟩]), ("rune", wholeRange 0 0x10ffff),
    ("float32", upTo (Nat.pow 2 128 - Nat.pow 2 104)),
    ("float64", upTo (Nat.pow 2 1024 - Nat.pow 2 971))] ++
  [8, 16, 32, 64, 128].flatMap fun bits =>
    [("int" ++ toString bits, signed bits), ("uint" ++ toString bits, unsigned bits)]

/-- The functions that every file has. -/
def functions : List String :=
  ["len", "close", "and", "or", "div", "mod", "quo", "rem"]

/-- The names that every file has. -/
def known : List String :=
  values.map (·.1) ++ functions

/-- The names used by parts, if each of them has none that stands for nothing. -/
def all? {α : Type} (uses? : α → Option (List String)) (parts : List α) : Option (List String) :=
  (parts.mapM uses?).map List.flatten

/-- The names that are not made known. -/
def outside (names used : List String) : List String :=
  used.filter (!names.contains ·)

mutual

/-- The names that a term takes from outside, with the names that are known around it. -/
def uses? (fuel : Nat) (scope : List String) (term : Term) : Option (List String) :=
  match fuel with
  | 0 => none
  | fuel + 1 =>
    match term with
    | .bottom => some []
    | .atom _ => some []
    | .name name => if scope.contains name || known.contains name then some [name] else none
    | .filled parts _ => all? (fun part => uses? fuel scope part.2) parts
    | .list elements => all? (usesElement? fuel scope) elements
    | .record declarations => usesRecord? fuel scope declarations
    | .group term => uses? fuel scope term
    | .unary .preferred _ => none
    | .unary _ term => uses? fuel scope term
    | .binary .either left right => do
      return (← usesAlternative? fuel scope left) ++ (← usesAlternative? fuel scope right)
    | .binary _ left right => do return (← uses? fuel scope left) ++ (← uses? fuel scope right)
    | .select term _ => uses? fuel scope term
    | .index term place => do return (← uses? fuel scope term) ++ (← uses? fuel scope place)
    | .slice term low high => all? (uses? fuel scope) (term :: low.toList ++ high.toList)
    | .call function arguments => all? (uses? fuel scope) (function :: arguments)
    | .known name term => do
      let used ← uses? fuel (name :: scope) term
      if used.contains name then some (outside [name] used) else none

/-- The names of a value in a choice, which may be preferred. -/
def usesAlternative? (fuel : Nat) (scope : List String) (term : Term) : Option (List String) :=
  match fuel with
  | 0 => none
  | fuel + 1 =>
    match term with
    | .unary .preferred term => usesAlternative? fuel scope term
    | .binary .either left right => do
      return (← usesAlternative? fuel scope left) ++ (← usesAlternative? fuel scope right)
    | term => uses? fuel scope term

/-- The names of an element of a list. -/
def usesElement? (fuel : Nat) (scope : List String) (element : Element) : Option (List String) :=
  match fuel with
  | 0 => none
  | fuel + 1 =>
    match element with
    | .item term => uses? fuel scope term
    | .rest term => all? (uses? fuel scope) term.toList
    | .comprehension clauses body => usesClauses? fuel scope clauses body

/-- The names of a body and the clauses before it. -/
def usesClauses? (fuel : Nat) (scope : List String) (clauses : List Clause) (body : Term) :
    Option (List String) :=
  match fuel with
  | 0 => none
  | fuel + 1 =>
    match clauses with
    | [] => uses? fuel scope body
    | .condition term :: rest => do
      return (← uses? fuel scope term) ++ (← usesClauses? fuel scope rest body)
    | .binding name term :: rest => do
      let used ← usesClauses? fuel (name :: scope) rest body
      if used.contains name then return (← uses? fuel scope term) ++ outside [name] used else none
    | .forEach key value source :: rest => do
      let names := value :: key.toList
      return (← uses? fuel scope source) ++
        outside names (← usesClauses? fuel (names ++ scope) rest body)

/-- The names of a record. -/
def usesRecord? (fuel : Nat) (scope : List String) (declarations : List Declaration) :
    Option (List String) :=
  match fuel with
  | 0 => none
  | fuel + 1 => do
    let names := declarations.flatMap Declaration.names
    let used ← all? (usesDeclaration? fuel (names ++ scope)) declarations
    let needed := declarations.flatMap fun
      | .binding name _ => [name]
      | .field other _ _ _ => other.toList
      | _ => []
    if needed.all used.contains then some (outside names used) else none

/-- The names of a declaration. -/
def usesDeclaration? (fuel : Nat) (scope : List String) (declaration : Declaration) :
    Option (List String) :=
  match fuel with
  | 0 => none
  | fuel + 1 =>
    match declaration with
    | .field _ label _ term =>
      match label with
      | .fixed _ _ => uses? fuel scope term
      | .dynamic name => do return (← uses? fuel scope name) ++ (← uses? fuel scope term)
      | .pattern none key => do return (← uses? fuel scope key) ++ (← uses? fuel scope term)
      | .pattern (some name) key => do
        return (← uses? fuel scope key) ++ outside [name] (← uses? fuel (name :: scope) term)
    | .embedded term => uses? fuel scope term
    | .binding _ term => uses? fuel scope term
    | .comprehension clauses body => usesClauses? fuel scope clauses body
    | .others => some []

end

end Scope

end TapeMachine.Config
