import Quorum.Host.Files
import Quorum.Duration
import Quorum.Host.IoError

/-!
# Calls to a host

What a program asks of the machine it runs on: its file system, running another program with a
time limit, a fresh scratch directory, its environment, its standard input and output, its
working directory and the wall clock. A program over these calls runs on a simulated machine as
on a real one.
-/

namespace Quorum

/-- What a program that ran to its end produced. -/
structure Finished where
  status : Nat
  stdout : ByteArray
  stderr : ByteArray

/-- How running a program ended. -/
inductive RunResult where
  | failedToStart (e : IoError)
  | timedOut
  | finished (f : Finished)

/-- A single call to a host. -/
inductive HostCall where
  | fs (c : FsCall)
  | run (program : String) (args : List String) (timeout : Duration)
  /-- Makes a fresh directory for scratch files, its name starting with `pre`. -/
  | scratchDir (pre : String)
  | env (name : String)
  /-- Every environment variable with its value, in the order the environment holds them. -/
  | environment
  /-- Reads one line of the standard input, with its line feed; empty at the end. -/
  | readLine
  | write (toError : Bool) (text : String)
  | workDir
  | now

def HostCall.Reply : HostCall → Type
  | .fs c => Except IoError c.Result
  | .run _ _ _ => RunResult
  | .scratchDir _ => Except IoError (List String)
  | .env _ => Option String
  | .environment => List (String × String)
  | .readLine => String
  | .write _ _ => Unit
  | .workDir => List String
  | .now => Int

def Host : Interface := ⟨HostCall, HostCall.Reply⟩

namespace Host

def call (c : HostCall) : Program Host c.Reply :=
  Program.ask (I := Host) c

def files {α : Type} (p : Program FileSystem α) : Program Host α :=
  p.interpret fun c => call (.fs c)

def printLine (text : String) : Program Host Unit :=
  call (.write false (text ++ "\n"))

def printError (text : String) : Program Host Unit :=
  call (.write true (text ++ "\n"))

/-- The path named by a text, from the directory `cwd`: absolute, or relative to `cwd`. Its
names are kept as they are written, `.` and `..` among them, for the file system to resolve;
repeated slashes count as one, and a slash at the end is kept as an empty last name. The empty
text is the empty path, which names nothing. -/
def resolveIn (cwd : List String) (path : String) : List String :=
  if path.isEmpty then [""]
  else
    let start := if path.startsWith "/" then [] else cwd
    let names := ((path.toList.splitOn '/').map String.ofList).filter (!·.isEmpty)
    start ++ names ++ (if !names.isEmpty && path.endsWith "/" then [""] else [])

def absolute (path : String) : Program Host (List String) := do
  return resolveIn (← call .workDir) path

def pathText (p : List String) : String :=
  if p.isEmpty then "/" else if p = [""] then "" else String.join (p.map ("/" ++ ·))

end Host

end Quorum
