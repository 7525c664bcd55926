import Std.Data.ExtTreeMap
import Quorum.Host.IoError

/-!
# File trees

A tree of directories and files as an operating system of the POSIX family keeps it. The root
directory always exists; every other path that holds something has a directory as its parent.

A path is handed to the tree as a list of names from the root, the way a program writes it: a
name `.` stays where it is, `..` goes up, and an empty name stands for a slash, which at the end
asks for a directory. An operation first resolves the path: every name before the last must fit
in 255 bytes and lead to an existing directory, or resolving stops with `nameTooLong`, `noEntry`
or `notDirectory` at the first name that fails; a path whose text takes 4096 bytes or more is
refused with `nameTooLong` before any of its names is looked at. What is left is the path the last name names,
whether that name is a plain one, and whether a slash follows it; each operation then looks at
it with its own errors. The empty path, written as a single empty name, names nothing.
-/

namespace Quorum

/-- What a path of a file tree holds. -/
inductive Node where
  | file (data : ByteArray)
  | dir

def Node.isDir : Node → Bool
  | .dir => true
  | .file _ => false

/-- A tree of directories and files, each at its path with no `.`, `..` or empty name; the root
is not stored and is always a directory. -/
structure FileTree where
  nodes : Std.ExtTreeMap (List String) Node compare

/-- Where a path leads once the directories on its way are walked. -/
structure Target where
  path : List String
  /-- Whether its last name is a plain name rather than `.`, `..` or the root. -/
  named : Bool
  slashed : Bool
  deriving DecidableEq, Repr

namespace FileTree

def empty : FileTree := ⟨∅⟩

def nameMax : Nat := 255

def pathMax : Nat := 4096

/-- The length in bytes of the text of a path: a slash before each name, or the root's one
slash. -/
def textLength (p : List String) : Nat :=
  if p.isEmpty then 1 else p.foldl (fun n name => n + 1 + name.utf8ByteSize) 0

def lookup (t : FileTree) (p : List String) : Option Node :=
  if p.isEmpty then some .dir else t.nodes[p]?

/-- Walks the names `names` from the directory `dir`: `.` stays, `..` goes up, and any other
name must fit and be an existing directory. -/
def walkDirs (t : FileTree) (dir : List String) : List String → Except Errno (List String)
  | [] => .ok dir
  | name :: rest =>
    if name = "." then t.walkDirs dir rest
    else if name = ".." then t.walkDirs dir.dropLast rest
    else if name.utf8ByteSize > nameMax then .error .nameTooLong
    else match t.lookup (dir ++ [name]) with
      | none => .error .noEntry
      | some (.file _) => .error .notDirectory
      | some .dir => t.walkDirs (dir ++ [name]) rest

def resolve (t : FileTree) (p : List String) : Except Errno Target := do
  if p = [""] then throw .noEntry
  if textLength p ≥ pathMax then throw .nameTooLong
  let names := p.filter (· ≠ "")
  let slashed := !names.isEmpty && p.getLast? == some ""
  match names.getLast? with
  | none => .ok ⟨[], false, slashed⟩
  | some last =>
    let dir ← t.walkDirs [] names.dropLast
    if last = "." then .ok ⟨dir, false, slashed⟩
    else if last = ".." then .ok ⟨dir.dropLast, false, slashed⟩
    else if last.utf8ByteSize > nameMax then .error .nameTooLong
    else .ok ⟨dir ++ [last], true, slashed⟩

/-- What a path holds and where it is, after resolving it; a path ending in a slash must hold a
directory. -/
def locate (t : FileTree) (p : List String) : Except Errno (Target × Node) := do
  let r ← t.resolve p
  match t.lookup r.path with
  | none => .error .noEntry
  | some (.file d) => if r.slashed then .error .notDirectory else .ok (r, .file d)
  | some .dir => .ok (r, .dir)

def status (t : FileTree) (p : List String) : Except Errno Node :=
  (t.locate p).map (·.2)

def isDir (t : FileTree) (p : List String) : Bool :=
  match t.status p with
  | .ok .dir => true
  | _ => false

/-- The names directly inside the directory `p`, with what they hold, in ascending order. -/
def children (t : FileTree) (p : List String) : List (String × Node) :=
  t.nodes.toList.filterMap fun (q, n) =>
    if q.length = p.length + 1 ∧ p.isPrefixOf q then (q.getLast?.map (·, n)) else none

/-- Makes the directory `p`, whose parent must exist; a slash after it is allowed. -/
def mkdir (t : FileTree) (p : List String) : Except Errno FileTree := do
  let r ← t.resolve p
  if !r.named then .error .fileExists
  else match t.lookup r.path with
    | some _ => .error .fileExists
    | none => .ok ⟨t.nodes.insert r.path .dir⟩

def readFile (t : FileTree) (p : List String) : Except Errno ByteArray := do
  match ← t.status p with
  | .file d => .ok d
  | .dir => .error .isDirectory

/-- Writes the file `p`, creating it or replacing its bytes. A path that does not end in a plain
name, or ends in a slash, can only be a directory. -/
def writeFile (t : FileTree) (p : List String) (data : ByteArray) : Except Errno FileTree := do
  let r ← t.resolve p
  if !r.named || r.slashed then .error .isDirectory
  else match t.lookup r.path with
    | some .dir => .error .isDirectory
    | _ => .ok ⟨t.nodes.insert r.path (.file data)⟩

/-- Moves the file `src` to `dst`, replacing a file there. Both ends must be plain names, and only
files are moved: a directory at either end is refused with `isDirectory`, and a slash after a
file with `notDirectory`. -/
def rename (t : FileTree) (src dst : List String) : Except Errno FileTree := do
  let s ← t.resolve src
  match t.lookup s.path with
  | none => .error .noEntry
  | some .dir => .error .isDirectory
  | some (.file d) =>
    let e ← t.resolve dst
    if !s.named || !e.named then .error .busy
    else if s.slashed || e.slashed then .error .notDirectory
    else match t.lookup e.path with
      | some .dir => .error .isDirectory
      | _ =>
        if s.path = e.path then .ok t else .ok ⟨(t.nodes.erase s.path).insert e.path (.file d)⟩

def removeFile (t : FileTree) (p : List String) : Except Errno FileTree := do
  let r ← t.resolve p
  if !r.named then .error .isDirectory
  else match t.lookup r.path with
    | none => .error .noEntry
    | some .dir => .error .isDirectory
    | some (.file _) => if r.slashed then .error .notDirectory else .ok ⟨t.nodes.erase r.path⟩

/-- Removes the directory `p`, which must be empty; the root cannot be removed. -/
def removeDir (t : FileTree) (p : List String) : Except Errno FileTree := do
  let (r, n) ← t.locate p
  match n with
  | .file _ => .error .notDirectory
  | .dir =>
    if r.path.isEmpty then .error .busy
    else if !r.named then .error .invalidArgument
    else if (t.children r.path).isEmpty then .ok ⟨t.nodes.erase r.path⟩
    else .error .directoryNotEmpty

def readDir (t : FileTree) (p : List String) : Except Errno (List (String × Node)) := do
  let (r, n) ← t.locate p
  match n with
  | .file _ => .error .notDirectory
  | .dir => .ok (t.children r.path)

def size (t : FileTree) : Nat := t.nodes.size

end FileTree

end Quorum
