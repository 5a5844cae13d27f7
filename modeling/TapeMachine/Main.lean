/-
The command line.

It reads the standard input and the files that the command line speaks of, leaves the work to `Tool.run`,
and writes what that gives.
-/
import TapeMachine.Log.SpanName
import TapeMachine.Tool.Execute

namespace TapeMachine.Shell

/-- The error number of reading a directory. -/
def directoryCode : UInt32 := 21

/-- All that is left of a stream. -/
partial def readAll (stream : IO.FS.Stream) (read : ByteArray) : IO ByteArray := do
  let chunk ← stream.read 65536
  if chunk.isEmpty then return read else readAll stream (read ++ chunk)

/-- The bytes of an array. -/
def bytesOf (a : ByteArray) : Bytes :=
  a.data.toList

/-- An array of bytes. -/
def arrayOf (b : Bytes) : ByteArray :=
  ⟨b.toArray⟩

/-- What stands at a path. -/
def entry? (path : String) : IO (Option FileEntry) := do
  try
    let content ← IO.FS.readBinFile path
    return some (.file (bytesOf content))
  catch e =>
    match e with
    | .inappropriateType _ code _ => return if code = directoryCode then some .directory else none
    | _ => return none

/-- The places on the way from a place along parts of a path. -/
def placesAlong (place : List Bytes) : List Bytes → List (List Bytes)
  | [] => [place]
  | part :: rest =>
    place :: placesAlong (if part = utf8 ".." then place.dropLast else place ++ [part]) rest

/-- The places on the way to a path, and the one that it leads to. -/
def placesTo (directory path : Bytes) : List (List Bytes) :=
  let start := if FilePath.isAbsolute path then [] else FilePath.parts directory
  (placesAlong start (FilePath.parts path)).filter (!·.isEmpty)

/-- The path of a place. -/
def pathOf (place : List Bytes) : String :=
  (Bytes.toString? (47 :: Bytes.joinWith [47] place)).getD ""

/-- The part of the file tree on the way to some paths. -/
def fileTree (directory : Bytes) (paths : List Bytes) : IO FileTree := do
  let places := (paths.flatMap (placesTo directory)).eraseDups
  let entries ← places.filterMapM fun place => do
    return (← entry? (pathOf place)).map fun entry => (place, entry)
  return { entries, workingDirectory := FilePath.parts directory }

/-- The value of a variable of the environment; one that is not set is empty. -/
def environmentVariable (name : String) : IO Bytes := do
  return utf8 ((← IO.getEnv name).getD "")

/-- The tool with what it finds around it. -/
def run (words : List Bytes) : IO Tool.ToolRun := do
  let options := (Tool.Options.parse words).1
  let directory := utf8 (← IO.currentDir).toString
  let user := Settings.userDirectory? (← environmentVariable "XDG_CONFIG_HOME") (← environmentVariable "HOME")
  let settingsPaths := Settings.candidates directory user
  let named := [options.file, options.trace].filter fun path => !path.isEmpty && path ≠ utf8 "-"
  let files ← fileTree directory (settingsPaths ++ named)
  let stdin ← if options.stdin || options.tap then readAll (← IO.getStdin) .empty else pure .empty
  let seed := (bytesOf (← IO.getRandomBytes 17)).foldl (fun n b => n * 256 + b.toNat) 0
  let env : Tool.Environment := { mode := .production, files, settingsPaths, network := Network.isolated }
  return Tool.run env (Log.SpanName.ofSeed seed) words (bytesOf stdin)

/-- Writes what the tool leaves. -/
def write (r : Tool.ToolRun) : IO Unit := do
  match r.file with
  | some (place, content) => IO.FS.writeBinFile (pathOf place) (arrayOf content)
  | none => pure ()
  let stdout ← IO.getStdout
  stdout.write (arrayOf r.output)
  stdout.flush
  let stderr ← IO.getStderr
  for line in r.errors do
    stderr.write (arrayOf (line ++ [10]))

end TapeMachine.Shell

/-- Runs the tool on the words of the command line. -/
def main (args : List String) : IO UInt32 := do
  let r ← TapeMachine.Shell.run (args.map TapeMachine.utf8)
  TapeMachine.Shell.write r
  return r.exitCode.toUInt32
