import Quorum.Config.Layered
import Quorum.Config.Environment
import Quorum.Host.Call
import Quorum.Toml.Parse
import Quorum.Toml.Report

/-!
# Finding and loading the settings

The settings file is the one named on the command line, else `config.toml` in the working
directory if there is one, else `.cosign/config.toml` in the home directory; it must exist. Its
text is read as TOML, the environment is layered over it, and the settings are read and
validated. A file that is a directory gives no settings of its own.

A refusal of the text or of a setting names the file as it was chosen, then says where the fault
lies, naming the file from the working directory:

    Failed to parse configuration: config.toml: TOML parse error at line 1, column 7
      ...
     in config.toml TOML file
-/

namespace Quorum.Config

def fileName : String := "config.toml"

def joinPath (dir name : String) : String :=
  if dir.endsWith "/" then dir ++ name else dir ++ "/" ++ name

/-- How messages name a file: by its path from the working directory `cwd` when it lies there,
empty names and `.` left out, else as it was given. -/
def shownPath (cwd : List String) (path : String) : String :=
  let names := (path.splitOn "/").filter fun n => !n.isEmpty && n != "."
  let full := if path.startsWith "/" then names else cwd ++ names
  if cwd.isPrefixOf full && cwd.length < full.length then "/".intercalate (full.drop cwd.length)
  else path

/-- The settings of the text of a file, shown as `shown`, under the table `env` of the
environment. -/
def ofFile (shown text : String) (env : List (String × Setting)) : Except String Config := do
  let root ← (Toml.parse text).mapError fun e =>
    e.render text ++ " in " ++ shown ++ " TOML file"
  (ofLayers ((Setting.ofDocument shown root).withEnvironment env)).mapError (·.render)

def ofEnvironment (env : List (String × Setting)) : Except String Config :=
  (ofLayers ((Setting.table [] none).withEnvironment env)).mapError (·.render)

def locate (explicit : Option String) : Program Host String := do
  match explicit with
  | some path => return path
  | none =>
    match ← Host.files (Files.call (.status (← Host.absolute fileName))) with
    | .ok _ => return fileName
    | .error _ =>
      let home := (← Host.call (.env "HOME")).getD ""
      return joinPath (joinPath home ".cosign") fileName

/-- The settings read from the file at `path`, under the environment. The environment is read
whatever the file holds, so a defect in reading it stops the program even when the file is
refused. -/
def read (path : String) : Program Host (Except String Config) := do
  let file ← Host.absolute path
  let shown := shownPath (← Host.call .workDir) path
  let vars ← Host.call .environment
  let env ← match Setting.ofEnvironment vars with
    | .ok env => pure env
    | .error d => .abort d
  match ← Host.files (Files.call (.status file)) with
  | .ok .dir => return ofEnvironment env
  | _ =>
    match ← Host.files (Files.call (.readFile file)) with
    | .error e => return .error (e.message ++ " in " ++ shown ++ " TOML file")
    | .ok bytes =>
      match String.fromUTF8? bytes with
      | none => return .error ("stream did not contain valid UTF-8 in " ++ shown ++ " TOML file")
      | some text => return ofFile shown text env

def load (explicit : Option String) : Program Host (Except ConfigError Config) := do
  let path ← locate explicit
  match ← Host.files (Files.call (.status (← Host.absolute path))) with
  | .error _ => return .error (.fileNotFound path)
  | .ok _ =>
    match ← read path with
    | .error detail => return .error (.parse (path ++ ": " ++ detail))
    | .ok c => return (c.validate).map fun () => c

end Quorum.Config
