/-
Settings files and schemas as terms.

A file or a schema is a list of declarations: fields `label: term`, with a mark behind the label of an
optional or a required one, and terms that stand alone and are taken into the record. A name that begins
with a number sign is one of a definition, which is closed; one that begins with a low line is hidden.

* `Term` is a term, `Declaration` a part of a record;
* `Declaration.names` are the names that a declaration makes known.
-/
import TapeMachine.Config.Atom

namespace TapeMachine.Config

/-- A label of a part of a value. -/
inductive Label where
  /-- A regular field. -/
  | field (name : String)
  | definition (name : String)
  | hidden (name : String)
  | item (index : Nat)
  /-- A term that is no part of the value. -/
  | inner (name : String)
deriving DecidableEq, Repr

namespace Label

/-- The label that a name is. -/
def ofName (name : String) : Label :=
  if name.startsWith "_" then .hidden name
  else if name.startsWith "#" then .definition name
  else .field name

/-- The name of a regular field. -/
def field? : Label → Option String
  | field name => some name
  | _ => none

/-- Whether a label is one of a definition. -/
def isDefinition : Label → Bool
  | definition _ => true
  | hidden name => name.startsWith "_#"
  | _ => false

end Label

/-- Whether a field has to be there, in the order in which a mark wins over another. -/
inductive Presence where
  /-- The field is there. -/
  | given
  /-- The field has to be there. -/
  | required
  | optional
deriving DecidableEq, Repr

/-- The stronger of two marks. -/
def Presence.both : Presence → Presence → Presence
  | given, _ => given
  | _, given => given
  | required, _ => required
  | _, required => required
  | optional, optional => optional

/-- An operator before a term. -/
inductive UnaryOp where
  | plus
  | minus
  | not
  /-- The mark of a default. -/
  | preferred
  | bound (comparison : Comparison)
deriving DecidableEq, Repr

/-- An operator between two terms. -/
inductive BinaryOp where
  /-- Either of two values. -/
  | either
  /-- The one value of two. -/
  | both
  | or
  | and
  | equal
  | compare (comparison : Comparison)
  | add
  | subtract
  | multiply
  | divide
  /-- Whole quotient and remainder, the latter never negative. -/
  | floorQuotient
  | floorRemainder
  /-- Whole quotient and remainder, the former toward zero. -/
  | wholeQuotient
  | wholeRemainder
deriving DecidableEq, Repr

mutual

/-- A term: a value or a constraint on values. -/
inductive Term where
  /-- No value. -/
  | bottom
  | name (name : String)
  | atom (value : Atom)
  /-- A text with terms in it, each behind a part of the text, and the part behind the last of them. -/
  | filled (parts : List (String × Term)) (last : String)
  | list (elements : List Element)
  | record (declarations : List Declaration)
  | group (term : Term)
  | unary (op : UnaryOp) (term : Term)
  | binary (op : BinaryOp) (left right : Term)
  | select (term : Term) (label : Label)
  | index (term place : Term)
  | slice (term : Term) (low high : Option Term)
  | call (function : Term) (arguments : List Term)
  /-- A term that is known by a name within itself. -/
  | known (name : String) (term : Term)

/-- An element of a list. -/
inductive Element where
  | item (term : Term)
  /-- Further items, with a constraint. -/
  | rest (term : Option Term)
  | comprehension (clauses : List Clause) (body : Term)

/-- A clause before the body of a comprehension. -/
inductive Clause where
  | forEach (key : Option String) (value : String) (source : Term)
  | condition (term : Term)
  | binding (name : String) (term : Term)

/-- A label as it is written. -/
inductive LabelTerm where
  /-- A label; `known` tells whether it can be used as a name. -/
  | fixed (label : Label) (known : Bool)
  /-- A label that has to be calculated. -/
  | dynamic (term : Term)
  /-- All labels that meet a constraint, which may be given a name. -/
  | pattern (other : Option String) (term : Term)

/-- A declaration of a record. -/
inductive Declaration where
  /-- A field, which may be given another name. -/
  | field (other : Option String) (label : LabelTerm) (presence : Presence) (term : Term)
  | embedded (term : Term)
  | binding (name : String) (term : Term)
  | comprehension (clauses : List Clause) (body : Term)
  /-- Three dots: further fields are allowed. -/
  | others

end

instance : Inhabited Term := ⟨.bottom⟩

namespace Declaration

/-- The names that a declaration makes known in its record. -/
def names : Declaration → List String
  | .field other label _ _ =>
    other.toList ++ match label with
      | .fixed (.field name) true => [name]
      | .fixed (.definition name) _ => [name]
      | .fixed (.hidden name) _ => [name]
      | _ => []
  | .binding name _ => [name]
  | _ => []

end Declaration

end TapeMachine.Config
