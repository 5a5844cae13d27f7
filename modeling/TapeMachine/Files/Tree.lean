/-
File trees: files and directories by path, and a working directory.

* `FileTree.locate` follows a path from the working directory or from the root;
* `FileTree.read` reads a file, `FileTree.create` makes or empties one;
* `FileError.message` is the message of a path that leads nowhere, or to the wrong thing.
-/
import TapeMachine.Text.Bytes

namespace TapeMachine

/-- Why a path cannot be used. -/
inductive FileCause where
  | notFound
  | notDirectory
  | isDirectory
  /-- The path holds a zero byte. -/
  | notAPath
  /-- The path or a part of it is too long. -/
  | tooLong
deriving DecidableEq, Repr

/-- The wording of a cause. -/
def FileCause.message : FileCause → String
  | notFound => "no such file or directory"
  | notDirectory => "not a directory"
  | isDirectory => "is a directory"
  | notAPath => "invalid argument"
  | tooLong => "file name too long"

/-- A failed operation on a path. -/
structure FileError where
  operation : String
  path : Bytes
  cause : FileCause
deriving DecidableEq, Repr

/-- The message of a failed operation. -/
def FileError.message (e : FileError) : Bytes :=
  utf8 (e.operation ++ " ") ++ e.path ++ utf8 (": " ++ e.cause.message)

namespace FilePath

/-- The parts of a path between its slashes, without empty ones and single dots. -/
def parts (path : Bytes) : List Bytes :=
  (path.split 47).filter fun part => !part.isEmpty && part ≠ utf8 "."

/-- Whether a path begins at the root. -/
def isAbsolute (path : Bytes) : Bool :=
  path.head? = some 47

/-- The most bytes of a path. -/
def maxLength : Nat := 4095

/-- The most bytes of a part of a path. -/
def maxPart : Nat := 255

/-- What is wrong with a path before it is followed: the empty path leads nowhere. -/
def flaw? (path : Bytes) : Option FileCause :=
  if path.contains 0 then some .notAPath
  else if path.isEmpty then some .notFound
  else if maxLength < path.length then some .tooLong
  else none

/-- Takes `..` as going back by one part; at the root it stays there. -/
def resolve : List Bytes → List Bytes → List Bytes
  | done, [] => done.reverse
  | done, part :: rest => if part = utf8 ".." then resolve done.tail rest else resolve (part :: done) rest

/-- The path of `name` in an absolute directory, in its shortest form. -/
def join (directory name : Bytes) : Bytes :=
  47 :: Bytes.joinWith [47] (resolve [] (parts directory ++ parts name))

end FilePath

/-- What stands at a path. -/
inductive FileEntry where
  | file (content : Bytes)
  | directory
deriving DecidableEq, Repr

/-- Files and directories by the parts of their paths from the root. The directories above an entry are
there without being listed. -/
structure FileTree where
  entries : List (List Bytes × FileEntry) := []
  workingDirectory : List Bytes := []
deriving Repr

namespace FileTree

/-- What stands at a place. -/
def entry? (t : FileTree) (place : List Bytes) : Option FileEntry :=
  match t.entries.lookup place with
  | some entry => some entry
  | none =>
    if t.entries.any (fun (other, _) => place.isPrefixOf other) || place.isPrefixOf t.workingDirectory
    then some .directory
    else none

/-- Goes from a place along parts of a path; everything passed on the way has to be a directory. -/
def follow (t : FileTree) (place : List Bytes) : List Bytes → Except FileCause (List Bytes)
  | [] => .ok place
  | part :: rest =>
    match t.entry? place with
    | none => .error .notFound
    | some (.file _) => .error .notDirectory
    | some .directory =>
      if part = utf8 ".." then follow t place.dropLast rest
      else if FilePath.maxPart < part.length then .error .tooLong
      else follow t (place ++ [part]) rest

/-- The place that parts of a path lead to, from the working directory or from the root. -/
def followPath (t : FileTree) (path : Bytes) (parts : List Bytes) : Except FileCause (List Bytes) :=
  t.follow (if FilePath.isAbsolute path then [] else t.workingDirectory) parts

/-- The place that a path leads to. A path that ends in a slash or a dot leads to directories only. -/
def locate (t : FileTree) (path : Bytes) : Except FileCause (List Bytes) :=
  match FilePath.flaw? path with
  | some cause => .error cause
  | none =>
    match t.followPath path (FilePath.parts path) with
    | .error cause => .error cause
    | .ok place =>
      let last := (path.split 47).getLastD []
      match t.entry? place with
      | some (.file _) =>
        if last.isEmpty || last = utf8 "." then .error .notDirectory else .ok place
      | some .directory => .ok place
      | none => if last = utf8 "." then .error .notFound else .ok place

/-- Reads a file. -/
def read (t : FileTree) (path : Bytes) : Except FileError Bytes :=
  match t.locate path with
  | .error cause => .error ⟨"open", path, cause⟩
  | .ok place =>
    match t.entry? place with
    | none => .error ⟨"open", path, .notFound⟩
    | some .directory => .error ⟨"read", path, .isDirectory⟩
    | some (.file content) => .ok content

/-- The place of a file that can be made at a path, or emptied there. A path that ends in a slash asks for a
directory, whatever stands there, if the directory above it is there. -/
def place (t : FileTree) (path : Bytes) : Except FileCause (List Bytes) :=
  if path.getLast? = some 47 && (FilePath.flaw? path).isNone then
    match t.followPath path (FilePath.parts path).dropLast with
    | .error cause => .error cause
    | .ok above =>
      match t.entry? above with
      | none => .error .notFound
      | some (.file _) => .error .notDirectory
      | some .directory => .error .isDirectory
  else
    match t.locate path with
    | .error cause => .error cause
    | .ok place => if t.entry? place = some .directory then .error .isDirectory else .ok place

/-- The place of a file that can be made at a path, or emptied there. -/
def create (t : FileTree) (path : Bytes) : Except FileError (List Bytes) :=
  (t.place path).mapError fun cause => ⟨"open", path, cause⟩

end FileTree

end TapeMachine
