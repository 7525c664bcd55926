import Quorum.Store.Call
import Quorum.Host.Files
import Quorum.Path.Object

/-!
# Blobs in a directory

A blob store kept as files under a root directory, typically on a mount that every co-signer can
reach. A key is a relative path below the root: its segments must be non-empty and neither `.`
nor `..`, so no key reaches outside the root or names the root itself. A key ending in `/` is a
directory marker: writing it makes the directory, and it is listed while the directory is empty.

An object is written to a partial file beside it and then moved into place, so that a reader
never sees half of it; partial files are left out of listings. Removing an object also removes
the directories above it that it leaves empty, up to the root. The root need not exist until the
first write: a missing root lists as empty.

Each call is a program of file system calls, so the store runs on a simulated file tree as on a
real file system.
-/

namespace Quorum

namespace Directory

/-- The suffix of the file that an object is written to before it is moved into place. -/
def partialSuffix : String := ".cosign-partial"

def isPartial (name : String) : Bool :=
  partialSuffix.toList.isSuffixOf name.toList

abbrev Fs := ExceptT StoreError (Program FileSystem)

def resolve (root : List String) (key : String) : Except StoreError (List String) :=
  let relative := if key.endsWith "/" then String.ofList key.toList.dropLast else key
  let names := segments relative
  if names.any (fun s => s.isEmpty || s == "." || s == "..") then .error (.invalidKey key)
  else .ok (root ++ names)

/-- A failure of the file system, as a failure of the backend while doing `context`. -/
def backend {α : Type} (context : String) (e : IoError) : Fs α :=
  throw (.backend context e)

/-- Makes one file system call; a failure is one of the backend while doing `context`. -/
def attempt (context : String) (c : FsCall) : Fs c.Result := do
  match ← (Files.call c : Program FileSystem _) with
  | .ok x => pure x
  | .error e => backend context e

/-- The bytes at `key`: a marker reads as empty bytes while its directory exists, and a
directory is not an object. -/
def get (root : List String) (key : String) : Fs (Option ByteArray) := do
  let file ← liftExcept (resolve root key)
  if key.endsWith "/" then
    return if ← Files.isDir file then some ByteArray.empty else none
  match ← (Files.call (.readFile file) : Program FileSystem _) with
  | .ok d => return some d
  | .error (.os .noEntry) => return none
  | .error e => if ← Files.isDir file then return none else backend ("reading " ++ key) e
where
  liftExcept {α : Type} : Except StoreError α → Fs α
    | .ok a => pure a
    | .error e => throw e

def partialOf (file : List String) : List String :=
  match file.getLast? with
  | some name => file.dropLast ++ [name ++ partialSuffix]
  | none => file

/-- Makes a directory with its ancestors; a failure is one of the backend while doing
`context`. -/
def makeDirs (context : String) (p : List String) : Fs Unit := do
  match ← Files.createDirAll p with
  | .ok () => pure ()
  | .error e => backend context e

/-- Writes the object at `key`, or makes the directory of a marker. A write that fails keeps
what it did before failing: directories it made and a partial file it wrote stay. -/
def put (root : List String) (key : String) (data : ByteArray) : Fs Unit := do
  let file ← get.liftExcept (resolve root key)
  if key.endsWith "/" then
    makeDirs ("creating " ++ key) file
  else
    makeDirs ("creating parent of " ++ key) file.dropLast
    attempt ("writing " ++ key) (.writeFile (partialOf file) data)
    attempt ("writing " ++ key) (.rename (partialOf file) file)

/-- The keys under the directory `dir`, whose key is `pre`, each file by its key and each empty
directory as a marker; partial files are left out but still make their directory non-empty.
`fuel` bounds the depth. -/
def collect : Nat → List String → String → Fs (List String)
  | 0, _, _ => pure []
  | fuel + 1, dir, pre => do
    match ← (Files.call (.readDir dir) : Program FileSystem _) with
    | .error (.os .noEntry) =>
      if pre.isEmpty then pure [] else backend "listing store" (.os .noEntry)
    | .error e => backend "listing store" e
    | .ok entries =>
      let shown := entries.filter (fun e => !isPartial e.1)
      let inner ← shown.mapM fun (name, kind) =>
        match kind with
        | .dir => collect fuel (dir ++ [name]) (pre ++ name ++ "/")
        | .file => pure [pre ++ name]
      return inner.flatten ++ (if entries.isEmpty && !pre.isEmpty then [pre] else [])

def depthLimit : Nat := 4096

def listAll (root : List String) : Fs (List String) := do
  let keys ← collect depthLimit root ""
  return keys.mergeSort (fun a b => decide (a ≤ b))

/-- Removes the directories from `dir` upwards that are empty, stopping below the root. -/
def prune (root : List String) (dir : List String) : Program FileSystem Unit :=
  if h : dir.length ≤ root.length ∨ !root.isPrefixOf dir then pure ()
  else do
    match ← Files.call (.removeDir dir) with
    | .ok () => prune root dir.dropLast
    | .error _ => pure ()
termination_by dir.length
decreasing_by simp only [List.length_dropLast]; omega

/-- Removes the object at `key`, or the directory of a marker once it is empty; anything already
missing counts as removed. -/
def delete (root : List String) (key : String) : Fs Unit := do
  let file ← get.liftExcept (resolve root key)
  let marker := key.endsWith "/"
  let removed ← if marker then (Files.call (.removeDir file) : Program FileSystem _)
    else Files.call (.removeFile file)
  match removed with
  | .ok () => prune root file.dropLast
  | .error (.os .noEntry) => pure ()
  | .error e => if marker then pure () else backend ("deleting " ++ key) e

/-- Whether an object exists at `key`: a file for a plain key, a directory for a marker. -/
def contains (root : List String) (key : String) : Fs Bool := do
  let file ← get.liftExcept (resolve root key)
  match ← (Files.call (.status file) : Program FileSystem _) with
  | .ok (k : FileKind) => return (k == .dir) == key.endsWith "/"
  | .error (.os .noEntry) => return false
  | .error e => backend ("checking " ++ key) e

def serve (root : List String) : (c : StoreCall) → Fs c.Reply
  | .get p => get root p
  | .put p d => put root p d
  | .listAll => listAll root
  | .listPrefix pre => do return (← listAll root).filter (pre.isPrefixOf ·)
  | .delete p => delete root p
  | .contains p => contains root p

def answer (root : List String) : StoreAnswer FileTree := fun c t =>
  match Program.run FileTree.answer (serve root c).run t with
  | (.ok x, t') => (x, t')
  | (.error d, t') => (.error (.backend "serving a call" (.other d.message)), t')

end Directory

end Quorum
