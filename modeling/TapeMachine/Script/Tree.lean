/-
Expressions and statements of scripts.

Every part that can fail when it is carried out has the place that messages name.

* `Expr` is an expression, `Stmt` a statement;
* `Expr.start` is the place where an expression begins;
* `Expr.targets` and `Stmt.bound` are the names that assignments give a value to.
-/
import TapeMachine.Script.Token

namespace TapeMachine.Script

/-- The operators before a single operand. -/
inductive UnaryOp where
  | negative
  | positive
  | complement
  | not
deriving DecidableEq, Repr

/-- How an operator is written. -/
def UnaryOp.spelling : UnaryOp → String
  | negative => "-"
  | positive => "+"
  | complement => "~"
  | not => "not"

/-- The operators between two operands. -/
inductive BinaryOp where
  | or
  | and
  | equal
  | different
  | less
  | greater
  | atMost
  | atLeast
  | isIn
  | isNotIn
  | bitOr
  | bitXor
  | bitAnd
  | shiftLeft
  | shiftRight
  | add
  | subtract
  | multiply
  | modulo
  | divide
  | floorDivide
deriving DecidableEq, Repr

namespace BinaryOp

/-- How an operator is written. -/
def spelling : BinaryOp → String
  | or => "or"
  | and => "and"
  | equal => "=="
  | different => "!="
  | less => "<"
  | greater => ">"
  | atMost => "<="
  | atLeast => ">="
  | isIn => "in"
  | isNotIn => "not in"
  | bitOr => "|"
  | bitXor => "^"
  | bitAnd => "&"
  | shiftLeft => "<<"
  | shiftRight => ">>"
  | add => "+"
  | subtract => "-"
  | multiply => "*"
  | modulo => "%"
  | divide => "/"
  | floorDivide => "//"

/-- How tightly an operator binds. The level between `and` and the comparisons is that of `not`. -/
def level : BinaryOp → Nat
  | or => 0
  | and => 1
  | equal | different | less | greater | atMost | atLeast | isIn | isNotIn => 3
  | bitOr => 4
  | bitXor => 5
  | bitAnd => 6
  | shiftLeft | shiftRight => 7
  | add | subtract => 8
  | multiply | modulo | divide | floorDivide => 9

/-- Every operator. -/
def all : List BinaryOp :=
  [or, and, equal, different, less, greater, atMost, atLeast, isIn, isNotIn, bitOr, bitXor, bitAnd,
    shiftLeft, shiftRight, add, subtract, multiply, modulo, divide, floorDivide]

/-- The operator of an assignment that changes a value, from the sign without its equals sign. -/
def ofUpdate? (sign : String) : Option BinaryOp :=
  [bitOr, bitXor, bitAnd, shiftLeft, shiftRight, add, subtract, multiply, modulo, divide,
    floorDivide].find? fun op => op.spelling ++ "=" = sign

end BinaryOp

/-- How a parameter takes arguments. -/
inductive ParameterKind where
  /-- One argument. -/
  | single
  /-- All arguments that are left, or none if it has no name. -/
  | sequence
  /-- All arguments with names that are left. -/
  | mapping
deriving DecidableEq, Repr

/-- A parameter of a function. -/
structure Parameter where
  kind : ParameterKind
  /-- The place of the parameter, from its stars on. -/
  position : Position
  /-- The name and its place. -/
  name : Option (String × Position)
deriving DecidableEq, Repr

/-- How an argument is given. -/
inductive ArgumentKind where
  | positional
  | named (position : Position) (name : String)
  /-- The items of a sequence, one by one. -/
  | sequence (position : Position)
  /-- The entries of a mapping, under their names. -/
  | mapping (position : Position)
deriving DecidableEq, Repr

/-- A value that is written out. -/
inductive Constant where
  | int (value : Nat)
  | float (bits : Nat)
  | text (value : Bytes)
  | bytes (value : Bytes)
deriving DecidableEq, Repr

/-- An expression. -/
inductive Expr where
  | name (position : Position) (name : String)
  | constant (position : Position) (value : Constant)
  | paren (position : Position) (body : Expr)
  | tuple (position : Position) (items : List Expr)
  | list (position : Position) (items : List Expr)
  | dict (position : Position) (entries : List (Expr × Position × Expr))
  | unary (position : Position) (op : UnaryOp) (operand : Expr)
  | binary (position : Position) (op : BinaryOp) (left right : Expr)
  | conditional (condition yes no : Expr)
  | index (position : Position) (container place : Expr)
  | slice (position : Position) (container : Expr) (low high step : Option Expr)
  | member (position : Position) (object : Expr) (name : String)
  | call (position : Position) (function : Expr) (arguments : List (ArgumentKind × Expr))
  | lambda (position : Position) (parameters : List (Parameter × Option Expr)) (body : Expr)
  /-- A list, or with a key a dictionary, made by loops and conditions: a clause with a place and targets
  is a loop. -/
  | comprehension (position : Position) (key : Option (Expr × Position)) (body : Expr)
      (clauses : List (Option (Position × Expr) × Expr))
deriving Repr, Inhabited

namespace Expr

/-- The place where an expression begins. -/
def start : Expr → Position
  | name p _ | constant p _ | paren p _ | tuple p _ | list p _ | dict p _ | unary p _ _ | lambda p _ _
  | comprehension p _ _ _ => p
  | binary _ _ e _ | conditional _ e _ | index _ e _ | slice _ e _ _ _ | member _ e _ | call _ e _ =>
    e.start

/-- What stands in brackets. -/
def unparen : Expr → Expr
  | paren _ e => e.unparen
  | e => e

/-- The kind of an expression that nothing can be assigned to. -/
def kind : Expr → String
  | constant .. => "literal"
  | dict .. => "dictexpr"
  | unary .. => "unaryexpr"
  | binary .. => "binaryexpr"
  | conditional .. => "condexpr"
  | slice .. => "sliceexpr"
  | call .. => "callexpr"
  | lambda .. => "lambdaexpr"
  | comprehension .. => "comprehension"
  | name .. => "ident"
  | paren .. => "parenexpr"
  | tuple .. => "tupleexpr"
  | list .. => "listexpr"
  | index .. => "indexexpr"
  | member .. => "dotexpr"

mutual

/-- The names that an assignment to an expression gives a value to. -/
def targets : Expr → List (String × Position)
  | name p id => [(id, p)]
  | paren _ e => targets e
  | tuple _ items => targetsOf items
  | list _ items => targetsOf items
  | _ => []

/-- The names that an assignment to expressions gives values to. -/
def targetsOf : List Expr → List (String × Position)
  | [] => []
  | e :: rest => targets e ++ targetsOf rest

end

/-- The names that the loops of a comprehension give values to. -/
def clauseTargets (clauses : List (Option (Position × Expr) × Expr)) : List (String × Position) :=
  clauses.flatMap fun (loop, _) => (loop.map fun (_, vars) => vars.targets).getD []

end Expr

/-- The statements of a single word. -/
inductive Jump where
  | pass
  | leave
  | next
deriving DecidableEq, Repr

/-- A statement. -/
inductive Stmt where
  | expr (value : Expr)
  | assign (position : Position) (target value : Expr)
  | update (position : Position) (op : BinaryOp) (target value : Expr)
  | jump (position : Position) (kind : Jump)
  | choose (condition : Expr) (yes no : List Stmt)
  | forEach (position : Position) (vars items : Expr) (body : List Stmt)
  | repeatWhile (condition : Expr) (body : List Stmt)
  | define (position : Position) (name : String) (namePosition : Position)
      (parameters : List (Parameter × Option Expr)) (body : List Stmt)
  | giveBack (position : Position) (value : Option Expr)
  /-- Names of another script, each with the name and place it is taken from and the name it gets here. -/
  | load (position : Position) (script : Bytes) (names : List (String × Position × String × Position))
deriving Repr, Inhabited

namespace Stmt

mutual

/-- The names that a statement gives a value to, with the places where that happens, in order. -/
def bound : Stmt → List (String × Position)
  | assign _ target _ => target.targets
  | update _ _ target _ => target.targets
  | choose _ yes no => boundIn yes ++ boundIn no
  | forEach _ vars _ body => vars.targets ++ boundIn body
  | repeatWhile _ body => boundIn body
  | define _ name p _ _ => [(name, p)]
  | load _ _ names => names.map fun (_, _, name, p) => (name, p)
  | expr _ | jump .. | giveBack .. => []

/-- The names that statements give values to. -/
def boundIn : List Stmt → List (String × Position)
  | [] => []
  | s :: rest => bound s ++ boundIn rest

end

end Stmt

end TapeMachine.Script
