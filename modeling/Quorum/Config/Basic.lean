import Quorum.Address.Basic
import Quorum.Coordinate.Cleanup
import Quorum.Text.Quoted

/-!
# Settings of the coordinator

The settings name the chains that transactions are signed on, the multisig keys that are signed
for, the shared store the co-signers exchange files through, and the bounds on waiting. Every
setting has a default except the names, addresses, ids, programs and prefixes of keys and
chains.

Settings are valid when no chain and no key is named twice, no name is empty or holds a `/`
(names are parts of store paths), every key needs at least one signature, and the chosen store
is located: a directory for the file store, a bucket for the bucket store. Chains are checked
first, then keys, then the store; the first fault found is reported.
-/

namespace Quorum

/-- Where the shared store lives. -/
inductive StoreBackend where
  | s3
  | fs
  deriving DecidableEq, Repr

def StoreBackend.name : StoreBackend → String
  | .s3 => "s3"
  | .fs => "fs"

/-- Which store to use, and the directory of a file store. -/
structure StoreSettings where
  backend : StoreBackend := .s3
  path : Option String := none
  deriving DecidableEq, Repr

/-- The bucket of a bucket store and the credentials for it. -/
structure BucketSettings where
  bucket : String := ""
  region : String := "us-east-1"
  accessKeyId : String := ""
  secretAccessKey : String := ""
  deriving DecidableEq, Repr

/-- Bounds on waiting for the outside world. -/
structure Timeouts where
  subprocessSecs : Nat := 120
  deleteSecs : Nat := 60
  pollIntervalMs : Nat := 500
  deriving DecidableEq, Repr

/-- A multisig key shared by a group of co-signers. -/
structure MultisigKey where
  name : String
  address : String
  localName : String := ""
  threshold : Nat := 2
  deriving DecidableEq, Repr

/-- A chain that transactions are signed on. -/
structure ChainProfile where
  name : String
  id : String
  binary : String
  addressPrefix : String
  node : String := ""
  denom : String := ""
  deriving DecidableEq, Repr

/-- The settings of the coordinator. -/
structure Config where
  user : String := ""
  keyringBackend : String := ""
  defaultGas : Nat := 300000
  store : StoreSettings := {}
  aws : BucketSettings := {}
  timeouts : Timeouts := {}
  keys : List MultisigKey := []
  chains : List ChainProfile := []
  deriving DecidableEq, Repr

/-- Why settings could not be had or used. -/
inductive ConfigError where
  | fileNotFound (path : String)
  | parse (detail : String)
  | invalidValue (detail : String)
  | unknownChain (name : String)
  | unknownKey (name : String)
  | address (e : AddressError)
  deriving DecidableEq, Repr

namespace ConfigError

def kind : ConfigError → String
  | .fileNotFound _ => "FileNotFound"
  | .parse _ => "ParseError"
  | .invalidValue _ => "InvalidValue"
  | .unknownChain _ => "UnknownChain"
  | .unknownKey _ => "UnknownKey"
  | .address _ => "Address"

def message : ConfigError → String
  | .fileNotFound p => "Configuration file not found: " ++ p
  | .parse d => "Failed to parse configuration: " ++ d
  | .invalidValue d => "Invalid configuration value: " ++ d
  | .unknownChain n => "chain " ++ n ++ " not found in config"
  | .unknownKey n => "key " ++ n ++ " not found in config"
  | .address e => e.message

end ConfigError

namespace ChainProfile

def addressOf (c : ChainProfile) (k : MultisigKey) : Except AddressError String :=
  convertPrefix k.address c.addressPrefix

/-- The node to use: the given one if not empty, else the chain's own if not empty. -/
def nodeOr (c : ChainProfile) (given : Option String) : Option String :=
  match given with
  | some n => if n.isEmpty then (if c.node.isEmpty then none else some c.node) else some n
  | none => if c.node.isEmpty then none else some c.node

end ChainProfile

def Timeouts.settings (t : Timeouts) : Settings :=
  ⟨Duration.ofSecs t.deleteSecs, Duration.ofMillis t.pollIntervalMs⟩

def isPathName (name : String) : Bool :=
  !name.isEmpty && !name.contains '/'

/-- The first fault among named things, in order: a name given twice, or one that cannot be a
path part. `what` is the kind of thing; `fault` checks anything else about each. -/
def firstNameFault {α : Type} (what : String) (name : α → String)
    (fault : α → Option String) : List String → List α → Option String
  | _, [] => none
  | seen, x :: xs =>
    if seen.contains (name x) then some (what ++ " " ++ name x ++ " is defined more than once")
    else if !isPathName (name x) then
      some (what ++ " name " ++ Text.quote (name x) ++
        " must be non-empty and must not contain '/'")
    else match fault x with
      | some f => some f
      | none => firstNameFault what name fault (name x :: seen) xs

namespace Config

def fault (c : Config) : Option String :=
  let chainFault := firstNameFault "chain" ChainProfile.name (fun _ => none) [] c.chains
  let keyFault := firstNameFault "key" MultisigKey.name
    (fun k => if k.threshold = 0 then some ("key " ++ k.name ++ " has a threshold of 0") else none)
    [] c.keys
  let storeFault := match c.store.backend with
    | .fs => if c.store.path.isNone then some "store.path is required for the fs backend" else none
    | .s3 => if c.aws.bucket.isEmpty then some "aws.bucket is required for the s3 backend" else none
  chainFault.orElse fun _ => keyFault.orElse fun _ => storeFault

def validate (c : Config) : Except ConfigError Unit :=
  match c.fault with
  | some f => .error (.invalidValue f)
  | none => .ok ()

def chain (c : Config) (name : String) : Except ConfigError ChainProfile :=
  match c.chains.find? (·.name == name) with
  | some p => .ok p
  | none => .error (.unknownChain name)

def key (c : Config) (name : String) : Except ConfigError MultisigKey :=
  match c.keys.find? (·.name == name) with
  | some k => .ok k
  | none => .error (.unknownKey name)

end Config

end Quorum
