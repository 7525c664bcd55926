import Quorum.Host.Call
import Quorum.Host.Clock
import Quorum.Chain.StandIn

/-!
# Simulated machines

A machine simulated in full: a file tree, a working directory, an environment, the text still to
be read from the standard input and the text written to the standard output and error, a wall
clock that stands still, and the programs it can run. The only program a simulated machine runs
is the stand-in chain node, under the names it is installed as; every other program fails to
start as missing. Scratch directories are made under `/tmp`, numbered in the order they are
made.
-/

namespace Quorum

/-- A simulated machine. -/
structure Machine where
  files : FileTree
  workDir : List String := []
  env : List (String × String) := []
  input : String := ""
  output : String := ""
  errors : String := ""
  clock : Clock := Clock.simulated
  scratchCount : Nat := 0
  nodes : List String := ["fakechaind"]
  log : String := ""

namespace Machine

def scratchRoot : List String := ["tmp"]

/-- The path named by a text: absolute, or relative to the working directory, its names kept
for the file tree to resolve. -/
def resolve (m : Machine) (path : String) : List String :=
  Host.resolveIn m.workDir path

def lookup (m : Machine) (name : String) : Option String :=
  (m.env.find? (·.1 == name)).map (·.2)

def fileAt (m : Machine) (path : String) : Option ByteArray :=
  match m.files.readFile (m.resolve path) with
  | .ok d => some d
  | .error _ => none

def scratchSuffix (n : Nat) : String :=
  let digits := (Nat.toDigits 36 n)
  String.ofList (List.replicate (6 - digits.length) '0' ++ digits)

def splitLine (s : String) : String × String :=
  match s.splitOn "\n" with
  | [] => ("", "")
  | [last] => (last, "")
  | first :: rest => (first ++ "\n", "\n".intercalate rest)

def answer : (c : HostCall) → Machine → c.Reply × Machine
  | .fs c, m => let (x, t) := FileTree.answer c m.files; (x, { m with files := t })
  | .run program args timeout, m =>
    if m.nodes.contains program then
      let (r, entry) := StandIn.respond m.lookup m.fileAt args timeout
      (r, { m with log := m.log ++ entry })
    else (.failedToStart (.os .noEntry), m)
  | .scratchDir pre, m =>
    let path := scratchRoot ++ [pre ++ scratchSuffix (m.scratchCount + 1)]
    let m := { m with scratchCount := m.scratchCount + 1 }
    match m.files.mkdir path with
    | .ok t => (.ok path, { m with files := t })
    | .error e => (.error (.os e), m)
  | .env name, m => (m.lookup name, m)
  | .environment, m => (m.env, m)
  | .readLine, m => let (line, rest) := splitLine m.input; (line, { m with input := rest })
  | .write toError text, m =>
    if toError then ((), { m with errors := m.errors ++ text })
    else ((), { m with output := m.output ++ text })
  | .workDir, m => (m.workDir, m)
  | .now, m => (m.clock.now, m)

def fresh (env : List (String × String)) : Machine :=
  { files := ⟨(∅ : Std.ExtTreeMap (List String) Node compare).insert scratchRoot .dir⟩, env := env }

end Machine

end Quorum
