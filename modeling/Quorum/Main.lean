import Quorum.Cli.Run

/-!
# The command line program

Runs the program on the real machine: each call to the host is answered by the operating
system. The file system calls become calls of the system, their failures carrying the system's
error numbers. Running another program is not available here, so every chain call fails to
start. The environment is read from `/proc/self/environ` and the wall clock from the boot time
and uptime under `/proc`.
-/

namespace Quorum.Console

/-- The system error number that an input or output error carries, if any. -/
def osCode : IO.Error → Option UInt32
  | .alreadyExists _ c _ | .otherError c _ | .resourceBusy c _ | .resourceVanished c _
  | .unsupportedOperation c _ | .hardwareFault c _ | .unsatisfiedConstraints c _
  | .illegalOperation c _ | .protocolError c _ | .timeExpired c _ | .interrupted _ c _
  | .noFileOrDirectory _ c _ | .invalidArgument _ c _ | .permissionDenied _ c _
  | .resourceExhausted _ c _ | .inappropriateType _ c _ | .noSuchThing _ c _ => some c
  | .unexpectedEof | .userError _ => none

def errnoOf (e : IO.Error) : Errno :=
  ((osCode e).bind fun c => Errno.ofCode c.toNat).getD .invalidArgument

def attempt {α : Type} (act : IO α) : IO (Except IoError α) := do
  try return .ok (← act) catch e => return .error (.os (errnoOf e))

def kindOf (m : IO.FS.Metadata) : FileKind :=
  if m.type == .dir then .dir else .file

def metadataOf (path : String) : IO IO.FS.Metadata := do
  ((← IO.currentDir) / path).metadata

def plainFileAnswer : (c : FsCall) → IO (Except IoError c.Result)
  | .status p => attempt do return kindOf (← metadataOf (Host.pathText p))
  | .mkdir p => attempt (IO.FS.createDir (Host.pathText p))
  | .readFile p => attempt (IO.FS.readBinFile (Host.pathText p))
  | .writeFile p d => attempt (IO.FS.writeBinFile (Host.pathText p) d)
  | .rename a b => attempt (IO.FS.rename (Host.pathText a) (Host.pathText b))
  | .removeFile p => attempt (IO.FS.removeFile (Host.pathText p))
  | .removeDir p => attempt (IO.FS.removeDir (Host.pathText p))
  | .readDir p => attempt do
    let entries ← ((← IO.currentDir) / Host.pathText p).readDir
    entries.toList.mapM fun e => do return (e.fileName, kindOf (← e.path.metadata))

/-- Answers a file system call; a path with a NUL byte fails before the system is asked. -/
def fileAnswer (c : FsCall) : IO (Except IoError c.Result) :=
  if c.hasNul then pure (.error .nulInPath) else plainFileAnswer c

def namesOf (path : String) : List String :=
  (path.splitOn "/").filter (!·.isEmpty)

def environment : IO (List (String × String)) := do
  let bytes ← try IO.FS.readBinFile "/proc/self/environ" catch _ => pure ByteArray.empty
  let text := Text.decodeLossy bytes
  return ((text.splitOn "\x00").filter (!·.isEmpty)).map fun entry =>
    match entry.splitOn "=" with
    | name :: rest => (name, "=".intercalate rest)
    | [] => (entry, "")

/-- The wall clock in seconds since the Unix epoch: the boot time plus the uptime. -/
def wallClock : IO Int := do
  try
    let stat ← IO.FS.readFile "/proc/stat"
    let uptime ← IO.FS.readFile "/proc/uptime"
    let boot := ((stat.splitOn "\n").findSome? fun line =>
      match line.splitOn " " with
      | ["btime", n] => n.toNat?
      | _ => none).getD 0
    let up := ((uptime.splitOn ".").head?.bind String.toNat?).getD 0
    return (boot + up : Nat)
  catch _ => return 0

def scratchDir (pre : String) : IO (Except IoError (List String)) := do
  let n ← IO.monoNanosNow
  let path := "/tmp/" ++ pre ++ toString (n % 1000000000)
  match ← attempt (IO.FS.createDir path) with
  | .ok () => return .ok (namesOf path)
  | .error e => return .error e

def answer : (c : HostCall) → IO c.Reply
  | .fs c => fileAnswer c
  | .run _ _ _ => return .failedToStart (.other "running programs is not available")
  | .scratchDir pre => scratchDir pre
  | .env name => IO.getEnv name
  | .environment => environment
  | .readLine => do (← IO.getStdin).getLine
  | .write toError text => do
    let h ← if toError then IO.getStderr else IO.getStdout
    h.putStr text
    h.flush
  | .workDir => do return namesOf (← IO.currentDir).toString
  | .now => wallClock

/-- Runs a program of the host on the real machine, to its value or to a defect. -/
def perform {α : Type} : Program Host α → IO (Except Defect α)
  | .pure a => pure (.ok a)
  | .call c next => do perform (next (← answer c))
  | .abort d => pure (.error d)

end Quorum.Console

def main (args : List String) : IO UInt32 := do
  match ← Quorum.Console.perform (Quorum.Cli.runCommandLine args) with
  | .ok status => return status.toUInt32
  | .error d =>
    (← IO.getStderr).putStr (Quorum.Cli.defectReport d)
    return Quorum.Cli.defectStatus.toUInt32
