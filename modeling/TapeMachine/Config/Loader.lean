/-
Loading settings files: several files, the first one that has a field decides.

* `Loader.loadWith` reads the files that exist, in order, and tests them against a schema; one bad file
  fails them all;
* `Loader.values` is the values at a path in the files that have one;
* `Loader.assignFirst` and `Loader.lookup` read the first of them by a type.

The language of the files is a parameter of all of them.
-/
import TapeMachine.Config.Language
import TapeMachine.Files.Tree

namespace TapeMachine.Config

/-- Why files cannot be loaded. -/
inductive LoadError (ε : Type := Error) where
  | file (error : FileError)
  | config (error : ε)
deriving DecidableEq, Repr

/-- A loaded file. -/
structure Root (L : Language) where
  path : Bytes
  value : L.Value

/-- The loaded files in order, or why there are none. -/
structure Loader (L : Language := language) where
  roots : Except (LoadError L.Error) (List (Root L))

/-- Why no value is read. -/
inductive LookupError (ε : Type := Error) where
  | load (error : LoadError ε)
  | notFound
  | wrongType
deriving DecidableEq, Repr

/-- The message for a path that no file has. -/
def LookupError.notFoundMessage : String :=
  "value not found"

namespace Loader

variable {L : Language}

/-- The text of a schema that is the inside of a record, closed. -/
def closedText (schema : String) : String :=
  "close(\x7b" ++ schema ++ "\x7d)"

/-- Reads a schema, which is the inside of a record; an empty text is no schema. -/
def schema? (L : Language) (text : String) : Except L.Error (Option L.Value) :=
  if text.isEmpty then .ok none else (L.compileString (closedText text)).map some

/-- Reads a file and tests it, if it exists. What is kept is the value that was read. -/
def loadFile (schema : Option L.Value) (files : FileTree) (path : Bytes) :
    Except (LoadError L.Error) (Option (Root L)) :=
  match files.read path with
  | .error e => if e.cause = .notFound then .ok none else .error (.file e)
  | .ok content =>
    match L.compileBytes path content with
    | .error e => .error (.config e)
    | .ok value =>
      match schema.map fun schema => L.validate (L.unify schema value) with
      | some (.error e) => .error (.config e)
      | some (.ok ()) | none => .ok (some ⟨path, value⟩)

/-- Reads files in order, up to the first bad one. -/
def loadFiles (schema : Option L.Value) (files : FileTree) :
    List Bytes → Except (LoadError L.Error) (List (Root L))
  | [] => .ok []
  | path :: paths => do
    let root ← loadFile schema files path
    let rest ← loadFiles schema files paths
    return root.toList ++ rest

/-- Reads files in order and tests them against a schema. -/
def load (schema : Option L.Value) (files : FileTree) (paths : List Bytes) : Loader L where
  roots := loadFiles schema files paths

/-- Reads files in order and tests them against the text of a schema. -/
def loadWith (schema : String) (files : FileTree) (paths : List Bytes) (L : Language := language) :
    Loader L :=
  match schema? L schema with
  | .error e => ⟨.error (.config e)⟩
  | .ok schema => load schema files paths

/-- The files that were loaded. -/
def paths (l : Loader L) : Except (LoadError L.Error) (List Bytes) :=
  l.roots.map fun roots => roots.map (·.path)

/-- The value of a file at a path, if there is one and no error. -/
def valueAt? (value : L.Value) (path : String) : Option L.Value :=
  match L.lookupPath value path with
  | some (.ok found) => some found
  | some (.error _) | none => none

/-- The values at a path, in the order of the files. -/
def values (l : Loader L) (path : String) : Except (LoadError L.Error) (List L.Value) :=
  l.roots.map fun roots => roots.filterMap fun root => valueAt? root.value path

/-- Reads the first value at a path. -/
def assignFirst {α : Type} (l : Loader L) (path : String) (read? : L.Value → Option α) :
    Except (LookupError L.Error) α :=
  match l.values path with
  | .error e => .error (.load e)
  | .ok [] => .error .notFound
  | .ok (value :: _) =>
    match read? value with
    | some a => .ok a
    | none => .error .wrongType

/-- Reads the first value at a path, if there is one. -/
def lookup {α : Type} (l : Loader L) (path : String) (read? : L.Value → Option α) :
    Except (LookupError L.Error) (Option α) :=
  match l.assignFirst path read? with
  | .error .notFound => .ok none
  | .error e => .error e
  | .ok a => .ok (some a)

/-- The message of a failed look-up of a path, with the message of the cause. -/
def lookupMessage (path : String) (cause : Bytes) : Bytes :=
  utf8 ("config " ++ path ++ ": ") ++ cause

end Loader

end TapeMachine.Config
