import Quorum.Program
import Quorum.Host.FileTree

/-!
# Calls to a file system

The single operations of a file system of the POSIX family, as requests with their replies, and
how a file tree answers them. Operations made of several calls, such as making a directory with
its missing ancestors or removing a whole tree, are programs of these calls, so that the same
program runs on a simulated tree and on a real file system.
-/

namespace Quorum

/-- What a path holds, without its bytes. -/
inductive FileKind where
  | file
  | dir
  deriving DecidableEq, Repr

def Node.kind : Node → FileKind
  | .file _ => .file
  | .dir => .dir

/-- A single call to a file system; paths are absolute, as lists of names. -/
inductive FsCall where
  | status (p : List String)
  | mkdir (p : List String)
  | readFile (p : List String)
  | writeFile (p : List String) (data : ByteArray)
  | rename (src dst : List String)
  | removeFile (p : List String)
  | removeDir (p : List String)
  | readDir (p : List String)

def FsCall.Result : FsCall → Type
  | .status _ => FileKind
  | .mkdir _ => Unit
  | .readFile _ => ByteArray
  | .writeFile _ _ => Unit
  | .rename _ _ => Unit
  | .removeFile _ => Unit
  | .removeDir _ => Unit
  | .readDir _ => List (String × FileKind)

def FsCall.paths : FsCall → List (List String)
  | .status p | .mkdir p | .readFile p | .writeFile p _ | .removeFile p | .removeDir p
  | .readDir p => [p]
  | .rename a b => [a, b]

/-- Whether a call names a path with a NUL byte in it, which cannot be handed to the system. -/
def FsCall.hasNul (c : FsCall) : Bool :=
  c.paths.any fun p => p.any fun name => name.toList.contains '\x00'

/-- The file system interface: every call may fail with an input or output error, which is an
error number of the system unless a path could not be handed to it. -/
def FileSystem : Interface := ⟨FsCall, fun c => Except IoError c.Result⟩

namespace FileTree

def change (t : FileTree) : Except Errno FileTree → Except Errno Unit × FileTree
  | .ok t' => (.ok (), t')
  | .error e => (.error e, t)

/-- How a file tree answers a call whose paths can be handed to it, by error number. -/
def answerPlain : (c : FsCall) → FileTree → Except Errno c.Result × FileTree
  | .status p, t => ((t.status p).map Node.kind, t)
  | .mkdir p, t => change t (t.mkdir p)
  | .readFile p, t => (t.readFile p, t)
  | .writeFile p d, t => change t (t.writeFile p d)
  | .rename a b, t => change t (t.rename a b)
  | .removeFile p, t => change t (t.removeFile p)
  | .removeDir p, t => change t (t.removeDir p)
  | .readDir p, t => ((t.readDir p).map (·.map fun (n, k) => (n, k.kind)), t)

/-- How a file tree answers a call: a path with a NUL byte fails before the tree is asked. -/
def answer (c : FsCall) (t : FileTree) : Except IoError c.Result × FileTree :=
  if c.hasNul then (.error .nulInPath, t)
  else
    let (r, t') := answerPlain c t
    (r.mapError .os, t')

end FileTree

namespace Files

def call (c : FsCall) : Program FileSystem (Except IoError c.Result) :=
  Program.ask (I := FileSystem) c

def isDir (p : List String) : Program FileSystem Bool := do
  match ← call (.status p) with
  | .ok .dir => return true
  | _ => return false

/-- Makes the directory `p` and its missing ancestors. A path that is already a directory is
left as it is, and so is the empty path; when making `p` fails because its parent is missing,
the parent is made first and `p` tried once more. -/
def createDirAll (p : List String) : Program FileSystem (Except IoError Unit) :=
  if h : p = [] then pure (.ok ())
  else if p = [""] then pure (.ok ())
  else do
    match ← call (.mkdir p) with
    | .ok () => return .ok ()
    | .error (.os .noEntry) =>
      match ← createDirAll p.dropLast with
      | .error e => return .error e
      | .ok () =>
        match ← call (.mkdir p) with
        | .ok () => return .ok ()
        | .error e => if ← isDir p then return .ok () else return .error e
    | .error e => if ← isDir p then return .ok () else return .error e
termination_by p.length
decreasing_by
  simp only [List.length_dropLast]
  have : p.length ≠ 0 := by simpa [List.length_eq_zero_iff] using h
  omega

/-- Removes the tree at `p`, files first, ignoring failures; `fuel` bounds the depth. -/
def removeTree : Nat → List String → Program FileSystem Unit
  | 0, _ => pure ()
  | fuel + 1, p => do
    match ← call (.status p) with
    | .ok .file => let _ ← call (.removeFile p)
    | .ok .dir =>
      match ← call (.readDir p) with
      | .ok entries =>
        let entries : List (String × FileKind) := entries
        entries.forM fun (name, _) => removeTree fuel (p ++ [name])
      | .error _ => pure ()
      let _ ← call (.removeDir p)
    | .error _ => pure ()

end Files

end Quorum
