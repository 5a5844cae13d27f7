/-
Where settings files are looked for: in the working directory, in the user's directory for settings and
in the one of the whole system, in this order.

* `Settings.candidates` lists the paths;
* `Settings.load` reads those that exist, unless the program is under development.
-/
import TapeMachine.Log.Logger
import TapeMachine.Settings.Mode
import TapeMachine.Settings.Values

namespace TapeMachine.Settings

open Config

/-- The names of settings files. -/
def fileNames : List Bytes :=
  [utf8 "tapeworm.cue", utf8 ".tapeworm.cue"]

/-- The settings directory of the whole system. -/
def systemDirectory : Bytes :=
  utf8 "/etc"

/-- The user's settings directory: the one that is named, which has to begin at the root, else one in
the home directory. -/
def userDirectory? (named home : Bytes) : Option Bytes :=
  if !named.isEmpty then if FilePath.isAbsolute named then some named else none
  else if home.isEmpty then none
  else some (home ++ utf8 "/.config")

/-- The paths at which settings files are looked for. -/
def candidates (workingDirectory : Bytes) (userDirectory : Option Bytes) : List Bytes :=
  (workingDirectory :: userDirectory.toList ++ [systemDirectory]).flatMap fun directory =>
    fileNames.map (FilePath.join directory)

/-- Reads the settings files and logs which were found. -/
def load (l : Log.Logger) (mode : Mode) (files : FileTree) (paths : List Bytes)
    (L : Language := language) : Loader L × Log.Logger :=
  match mode with
  | .development => (.loadWith schema files [] L, l)
  | .production =>
    let loader := Loader.loadWith schema files paths L
    match loader.paths with
    | .ok (path :: paths) =>
      (loader, l.write [] .info "config files" [("paths", .list (path :: paths))])
    | _ => (loader, l)

end TapeMachine.Settings
