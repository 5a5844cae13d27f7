/-
Sessions: scripts over the values of a host.

A session keeps its names from one chunk to the next, and what a chunk did stays done if it fails. The
functions of a chunk keep the values that its names have at its end.

* `Script.evaluate` gives the value of one expression;
* `Session.converse` answers lines that are typed in;
* `Error.message` is the message of an error, `Error.report` tells also where it happened.
-/
import TapeMachine.Script.Eval
import TapeMachine.Script.HostValue
import TapeMachine.Script.LineInput
import TapeMachine.Script.Parser

namespace TapeMachine.Script

/-- Why a script has no value. -/
inductive Error where
  | malformed (error : SyntaxError)
  | failed (failure : Failure)
deriving DecidableEq, Repr

namespace Error

/-- The message of an error. -/
def message (file : String) : Error → Bytes
  | malformed e => utf8 (e.position.text file ++ ": ") ++ e.message
  | failed (.failed message _) => message
  | failed (.foreign type) => utf8 ("unsupported type " ++ type)

/-- Where a frame is. -/
def spotText (file : String) : Spot → String
  | .position p => p.text file
  | .nowhere => file
  | .builtin => "<builtin>"

/-- The message of an error with the places where evaluation was, outermost first. A function at the end
that is not written in the script is named with the message. -/
def report (file : String) : Error → Bytes
  | failed (.failed message frames) =>
    let (frames, suffix) := match frames.getLast? with
      | some ⟨function, .builtin⟩ => (frames.dropLast, " in " ++ function)
      | _ => (frames, "")
    let lines := frames.map fun f => "  " ++ spotText file f.spot ++ ": in " ++ f.function ++ "\n"
    let head := if frames.isEmpty then "" else "Traceback (most recent call last):\n"
    utf8 (head ++ String.join lines ++ "Error" ++ suffix ++ ": ") ++ message
  | e => e.message file

end Error

/-- A script that is being talked to. -/
structure Session where
  store : Store
  /-- The address of the names. -/
  names : Nat
  /-- The number of chunks so far. -/
  chunks : Nat := 0

/-- The bound of the depth of evaluation. -/
def stepLimit : Nat := 1000000000

/-- Whether a name is one of those that every script has. -/
def isEverywhere (name : String) : Bool :=
  (everywhere.lookup name).isSome

namespace Session

/-- A session over the values of a host. -/
def start (globals : Globals) : Session :=
  let place : Work Nat := do
    let values ← globals.mapM fun (name, v) => do return (name, ← v.place)
    Work.allocate (.scope values)
  match place {} with
  | .ok names store => { store, names }
  | .error _ store => { store, names := 0 }

/-- The names and their values. -/
def values (s : Session) : List (String × Value) :=
  s.store.scopeValues s.names

/-- Whether a name has a value. -/
def has (s : Session) (name : String) : Bool :=
  (s.values.lookup name).isSome

/-- The value of an expression. -/
def eval (s : Session) (file : String) (e : Expr) : Except Error Value × Session :=
  match Names.checkExpr stepLimit file (fun name => s.has name || isEverywhere name) e with
  | some e => (.error (.malformed e), s)
  | none =>
    let scope : Scope := { address := s.names, names := s.values.map (·.1) }
    let c : Context := { function := "<expr>", scopes := [scope], chunk := s.chunks }
    let s := { s with chunks := s.chunks + 1 }
    match Eval.expr stepLimit c e s.store with
    | .ok v store => (.ok v, { s with store })
    | .error f store => (.error (.failed f), { s with store })

/-- Carries statements out on a copy of the names, which is then kept. -/
def exec (s : Session) (file : String) (stmts : List Stmt) : Option Error × Session :=
  match Names.checkChunk stepLimit file s.has isEverywhere stmts with
  | some e => (some (.malformed e), s)
  | none =>
    let address := s.store.objects.size
    let store := { s.store with objects := s.store.objects.push (.scope s.values) }
    let names := s.values.map (·.1) ++ (Stmt.boundIn stmts).map (·.1)
    let scope : Scope := { address, names, isGlobal := true }
    let c : Context := { function := "<toplevel>", scopes := [scope], chunk := s.chunks }
    let keep (store : Store) : Session :=
      { s with
        chunks := s.chunks + 1
        store := { store with
          objects := store.objects.setIfInBounds s.names (.scope (store.scopeValues address)) } }
    match Eval.stmts stepLimit c stmts store with
    | .ok _ store => (none, keep store)
    | .error f store => (some (.failed f), keep store)

/-- Takes the lines that were printed, in order. -/
def takePrinted (s : Session) : List Bytes × Session :=
  (s.store.printed.reverse, { s with store := { s.store with printed := [] } })

/-! ### Conversations -/

/-- What is answered to lines. -/
inductive Answer where
  /-- A text on the output. -/
  | output (text : Bytes)
  /-- A line beside the output. -/
  | note (text : Bytes)
  /-- The conversation broke off. -/
  | crash (message : Bytes)
deriving DecidableEq, Repr

/-- The name of lines that are typed in, in messages. -/
def typedFile : String := "<stdin>"

/-- The answers to an error. -/
def refuse (e : Error) : Answer :=
  match e with
  | .failed (.foreign _) => .crash (e.message typedFile)
  | e => .note (e.report typedFile)

/-- Answers a chunk. An expression alone is answered with its value, unless that is nothing. -/
def respond (s : Session) (stmts : List Stmt) : List Answer × Session :=
  let (answers, s) : List Answer × Session := match stmts with
    | [.expr e] =>
      match s.eval typedFile e with
      | (.ok .none, s) => ([], s)
      | (.ok v, s) => ([.output (s.store.write v ++ [10])], s)
      | (.error e, s) => ([refuse e], s)
    | stmts =>
      match s.exec typedFile stmts with
      | (none, s) => ([], s)
      | (some e, s) => ([refuse e], s)
  let (printed, s) := s.takePrinted
  (printed.map .note ++ answers, s)

/-- The bell, rung some times. -/
def bells (n : Nat) : List Answer :=
  if n = 0 then [] else [.output (List.replicate n 7)]

/-- Answers lines, in at most `fuel` chunks. -/
def converseFrom : Nat → Session → List TypedLine → Nat → List Answer
  | 0, _, _, _ => []
  | fuel + 1, s, lines, bellsAfter =>
    let (read, rest) := Parser.chunk (lines.map fun line => line.text ++ ['\n'])
    let taken := lines.length - rest.length
    let rung := (lines.take taken).flatMap fun line => bells line.bells
    match read with
    | .error .exhausted => rung ++ bells bellsAfter
    | .error (.malformed e) =>
      rung ++ refuse (.malformed e) :: converseFrom fuel s (lines.drop taken) bellsAfter
    | .ok stmts =>
      let (answers, s) := s.respond stmts
      let broken := answers.any fun
        | .crash _ => true
        | _ => false
      rung ++ answers ++ if broken then [] else converseFrom fuel s (lines.drop taken) bellsAfter

/-- Answers an input line by line, with breaks where a chunk is at its end. -/
def converse (s : Session) (input : Bytes) : List Answer :=
  let (lines, bellsAfter) := LineInput.ofBytes input
  converseFrom (lines.length + 1) s lines bellsAfter

end Session

/-- The value of an expression as it is printed, and the lines that were printed on the way. -/
structure Evaluation where
  result : Except Error Bytes
  printed : List Bytes := []

/-- The value of an expression over the values of a host. -/
def evaluate (globals : Globals) (file : String) (text : Bytes) : Evaluation :=
  match Parser.expression (Utf8.replaceInvalid text) with
  | .error e => { result := .error (.malformed e) }
  | .ok e =>
    let (result, s) := (Session.start globals).eval file e
    { result := result.map s.store.print, printed := s.takePrinted.1 }

end TapeMachine.Script
