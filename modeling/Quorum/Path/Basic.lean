import Quorum.Path.Error
import Quorum.Numeral

/-!
# The store's layout

Every object of a transaction lives at `<chain>/<key>/<version>/<file>`.

* A *component* (chain, key or signer name) is non-empty, holds no `/`, and is neither `.` nor
  `..`.
* A *queue* is a chain and a multisig key; its versions are the transactions queued for that
  key on that chain.
* A *version* is a queue and a 64-bit index, written in plain decimal without leading zeros, so
  that `007` or `+7` never alias version 7.
* An *artifact* is a file of a version: the unsigned payload, the signing metadata, or the
  signature of one signer, named after the signer.

Prefixes end in `/`, so that queue `val` never matches `val2` and version `1` never matches `10`.
-/

namespace Quorum

def validComponent (s : String) : Bool :=
  !(s.isEmpty || s.toList.contains '/' || s == "." || s == "..")

def checkComponent (s : String) : Except PathError Unit :=
  if validComponent s then .ok () else .error (.invalidComponent s)

def indexText (i : UInt64) : String :=
  Nat.repr i.toNat

/-- Reads the version segment `segment` of the object key `path`. The segment must be exactly the
decimal text of its value. -/
def parseIndex (path segment : String) : Except PathError UInt64 :=
  match Numeral.parseU64 segment with
  | .ok i => if indexText i = segment then .ok i else .error (.invalidVersion path segment)
  | .error _ => .error (.invalidVersion path segment)

def endsInSlash (s : String) : Bool :=
  s.toList.getLast? == some '/'

def stripPrefix? (s pre : String) : Option String :=
  if pre.toList.isPrefixOf s.toList then some (String.ofList (s.toList.drop pre.length)) else none

/-- A chain and a multisig key: the namespace of one queue of transactions. -/
structure Queue where
  chain : String
  key : String
  chain_valid : validComponent chain = true
  key_valid : validComponent key = true
  deriving DecidableEq

namespace Queue

/-- The queue of `chain` and `key`, if both are valid components. The chain is checked first. -/
def new? (chain key : String) : Except PathError Queue :=
  if hc : validComponent chain = true then
    if hk : validComponent key = true then .ok ⟨chain, key, hc, hk⟩
    else .error (.invalidComponent key)
  else .error (.invalidComponent chain)

def display (q : Queue) : String :=
  q.chain ++ "/" ++ q.key

def pre (q : Queue) : String :=
  q.display ++ "/"

def compare (a b : Queue) : Ordering :=
  (Ord.compare a.chain b.chain).then (Ord.compare a.key b.key)

end Queue

/-- One transaction of a queue. -/
structure Version where
  queue : Queue
  index : UInt64
  deriving DecidableEq

namespace Version

def display (v : Version) : String :=
  v.queue.display ++ "/" ++ indexText v.index

def pre (v : Version) : String :=
  v.display ++ "/"

def compare (a b : Version) : Ordering :=
  (a.queue.compare b.queue).then (Ord.compare a.index b.index)

end Version

def Queue.version (q : Queue) (index : UInt64) : Version :=
  ⟨q, index⟩

/-- A file of a version. -/
inductive Artifact where
  | unsigned
  | signdata
  | signature (name : String)
  deriving DecidableEq, Repr

namespace Artifact

def name : Artifact → String
  | .unsigned => "unsigned"
  | .signdata => "signdata"
  | .signature n => n

/-- The artifact that a bare file name stands for: a reserved name, or else a signature. -/
def ofName (n : String) : Artifact :=
  if n = "unsigned" then .unsigned
  else if n = "signdata" then .signdata
  else .signature n

def isSignature : Artifact → Bool
  | .signature _ => true
  | _ => false

def kind : Artifact → String
  | .unsigned => "unsigned"
  | .signdata => "signdata"
  | .signature _ => "signature"

/-- The signature artifact of `signer`, which must be a component and not a reserved name. -/
def signature? (signer : String) : Except PathError Artifact :=
  match checkComponent signer with
  | .error e => .error e
  | .ok () =>
    match ofName signer with
    | .signature n => .ok (.signature n)
    | _ => .error (.reserved signer)

def compare : Artifact → Artifact → Ordering
  | .unsigned, .unsigned => .eq
  | .unsigned, _ => .lt
  | .signdata, .unsigned => .gt
  | .signdata, .signdata => .eq
  | .signdata, .signature _ => .lt
  | .signature _, .unsigned => .gt
  | .signature _, .signdata => .gt
  | .signature a, .signature b => Ord.compare a b

end Artifact

def Version.path (v : Version) (a : Artifact) : String :=
  v.pre ++ a.name

end Quorum
