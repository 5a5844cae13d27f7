/-
Places that messages name.

An operation without a place of its own is told by the last place before it, in the order in which things
are carried out.

* `Expr.marks` are the places of an expression in order;
* `Stmt.firstMark` is the first place of statements;
* `Expr.sliceMark` is the place of a slice.
-/
import TapeMachine.Script.Tree

namespace TapeMachine.Script

namespace Expr

/-- Whether the first thing that is done for an expression has a place. `isOwn` tells the names that are
not those which every script has. -/
def marksStart (isOwn : String → Bool) : Nat → Expr → Bool
  | 0, _ => false
  | fuel + 1, e =>
    match e with
    | name _ id => isOwn id
    | paren _ e | unary _ _ e | member _ e _ | index _ e _ | call _ e _ | binary _ _ e _ | conditional e _ _ =>
      marksStart isOwn fuel e
    | tuple _ (e :: _) | list _ (e :: _) => marksStart isOwn fuel e
    | slice .. => true
    | _ => false

/-- The places of an expression, in the order in which its parts are carried out. -/
def marks (isOwn : String → Bool) : Nat → Expr → List Position
  | 0, _ => []
  | fuel + 1, e =>
    let all (es : List Expr) : List Position := es.flatMap (marks isOwn fuel)
    match e with
    | name p id => if isOwn id then [p] else []
    | constant .. => []
    | paren _ e => marks isOwn fuel e
    | tuple _ items => all items
    | list _ items => all items
    | dict _ entries => entries.flatMap fun (key, colon, value) => all [key, value] ++ [colon]
    | unary p _ e => all [e] ++ [p]
    | binary p op a b => all [a, b] ++ if op = .or || op = .and then [] else [p]
    | conditional c a b => all [c, a, b]
    | index p e i => all [e, i] ++ [p]
    | slice p e low high step =>
      (if marksStart isOwn fuel e then [] else [p]) ++ all (e :: [low, high, step].filterMap id)
    | member p e _ => all [e] ++ [p]
    | call p f arguments => all (f :: arguments.map (·.2)) ++ [p]
    | lambda p parameters _ => p :: all (parameters.filterMap (·.2))
    | comprehension _ key body clauses =>
      clauses.flatMap (fun (loop, e) => all [e] ++ (loop.map fun (p, _) => [p]).getD []) ++
        (key.map fun (k, colon) => all [k, body] ++ [colon]).getD (all [body])

/-- Deeper parts of an expression are not looked at for places. -/
def markDepth : Nat := 1000

/-- The place of a slice: the last place of its operands. -/
def sliceMark (isOwn : String → Bool) (p : Position) (container : Expr) (ends : List (Option Expr)) :
    Position :=
  let before := if marksStart isOwn markDepth container then [] else [p]
  ((before ++ (container :: ends.filterMap id).flatMap (marks isOwn markDepth)).getLast?).getD p

end Expr

namespace Stmt

/-- The first place of statements. -/
def firstMark (isOwn : String → Bool) : Nat → List Stmt → Option Position
  | 0, _ => none
  | _ + 1, [] => none
  | fuel + 1, s :: rest =>
    let first (e : Expr) : Option Position := (e.marks isOwn Expr.markDepth).head?
    let later := firstMark isOwn fuel rest
    match s with
    | expr (.constant ..) => later
    | expr e => first e <|> later
    | assign _ target value => first value <|> first target <|> later
    | update p _ target value => first target <|> first value <|> some p
    | jump .. => later
    | choose c yes no => first c <|> firstMark isOwn fuel yes <|> firstMark isOwn fuel no <|> later
    | forEach p _ items _ => first items <|> some p
    | repeatWhile c body => first c <|> firstMark isOwn fuel body <|> later
    | define p _ _ _ _ => some p
    | giveBack _ value => value.bind first <|> later
    | load p _ _ => some p

end Stmt

end TapeMachine.Script
