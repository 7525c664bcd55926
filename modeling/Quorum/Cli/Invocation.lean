import Quorum.Cli.Parse

/-!
# What a command line asks for

The reading of a command line, turned into the request of one command with typed values. The
values were checked while the line was read, so reading them again cannot fail; a command line
that does not end at a command that runs gives no request.

The settings file, keystore home, log level and log format come from the deepest command that
was given them, else from their defaults.
-/

namespace Quorum.Cli

/-- The chain and multisig key of a transaction. -/
structure Target where
  chain : String
  key : String
  deriving DecidableEq, Repr

/-- How a transaction is published. -/
structure PublishChoice where
  account : Option UInt64
  sequence : Option UInt64
  node : Option String
  force : Bool
  additional : Bool
  description : String
  deriving DecidableEq, Repr

/-- The fees of a transaction that the chain's program writes. -/
structure FeeChoice where
  fees : Coin
  gas : Option UInt64
  denom : Option String

/-- A transaction that the chain's program writes. -/
inductive Draft where
  | withdraw
  | delegate (validator : String) (amount : Coin)
  | claimValidator (validator : String)
  | vote (proposal : UInt64) (option : VoteOption)
  | grant (grantee : String) (msg : AuthzMsg) (days : Nat)
  | revoke (grantee : String) (msg : AuthzMsg)

/-- The request of one command. -/
inductive Invocation where
  | push (file : String) (target : Target) (publish : PublishChoice)
  | generate (target : Target) (draft : Draft) (fee : FeeChoice) (publish : PublishChoice)
  | sign (target : Target) (keyName : String) (index : UInt64) (signer : Option String)
      (confirmed : Bool)
  | broadcast (target : Target) (index : UInt64) (node : Option String)
      (multisigKey : Option String) (threshold : Option UInt64) (keepOnFailure : Bool)
  | delete (target : Target) (index : UInt64)
  | list (chain key : Option String) (everything : Bool)
  | bech32 (address newPrefix : String)
  | cat (target : Target)
  | upload (source destination : String)
  | download (source destination : String)
  | mkdir (dir : String)
  | remove (path : String)
  | showConfig

/-- The parameters every command takes. -/
structure Globals where
  config : Option String
  home : Option String
  verbose : Bool
  logFormat : LogFormat
  deriving DecidableEq, Repr

namespace Reading

def leaf (r : Reading) : List Given :=
  (r.getLast?.map (·.2)).getD []

def path (r : Reading) : List String :=
  (r.drop 1).map (·.1)

def text? (r : Reading) (id : String) : Option String :=
  (r.leaf.find? (·.id == id)).bind (·.values.head?)

def text (r : Reading) (id : String) : String :=
  (r.text? id).getD ""

def flag (r : Reading) (id : String) : Bool :=
  r.leaf.any (·.id == id)

def word? (r : Reading) (id : String) : Option UInt64 :=
  (r.text? id).bind fun s => (Numeral.parseU64 s).toOption

def target (r : Reading) : Target :=
  ⟨r.text "chain", r.text "key"⟩

def publish (r : Reading) : PublishChoice :=
  { account := r.word? "account", sequence := r.word? "sequence", node := r.text? "node",
    force := r.flag "force", additional := r.flag "additional",
    description := r.text "description" }

def fee (r : Reading) : Option FeeChoice :=
  (Coin.parse (r.text "fees")).toOption.map fun c =>
    { fees := c, gas := r.word? "gas", denom := r.text? "denom" }

def draft (r : Reading) : List String → Option Draft
  | ["withdraw"] => some .withdraw
  | ["delegate"] => ((Coin.parse (r.text "amount")).toOption).map (.delegate (r.text "validator"))
  | ["claim-validator"] => some (.claimValidator (r.text "validator"))
  | ["vote"] => do
    let o ← (VoteOption.parse (r.text "option")).toOption
    return .vote ((r.word? "proposal").getD 0) o
  | ["authz", "grant"] => do
    let m ← (AuthzMsg.parse (r.text "msg")).toOption
    let days ← (Numeral.parseSigned 64 (r.text "expiration_days")).toOption
    return .grant (r.text "grantee") m days.toNat
  | ["authz", "revoke"] =>
    ((AuthzMsg.parse (r.text "msg")).toOption).map (.revoke (r.text "grantee"))
  | _ => none

def invocation (r : Reading) : Option Invocation :=
  let index := (r.word? "index").getD 0
  match r.path with
  | ["tx", "push"] => some (.push (r.text "file") r.target r.publish)
  | "tx" :: rest => do return .generate r.target (← r.draft rest) (← r.fee) r.publish
  | ["sign"] =>
    some (.sign r.target (r.text "from") index (r.text? "signer") (r.flag "yes"))
  | ["broadcast"] =>
    some (.broadcast r.target index (r.text? "node") (r.text? "multisig_key")
      (r.word? "threshold") (r.flag "keep_on_failure"))
  | ["delete"] => some (.delete r.target index)
  | ["list"] => some (.list (r.text? "chain") (r.text? "key") (r.flag "all"))
  | ["raw", "bech32"] => some (.bech32 (r.text "address") (r.text "prefix"))
  | ["raw", "cat"] => some (.cat r.target)
  | ["raw", "up"] => some (.upload (r.text "local") (r.text "remote"))
  | ["raw", "down"] => some (.download (r.text "remote") (r.text "local"))
  | ["raw", "mkdir"] => some (.mkdir (r.text "dir"))
  | ["raw", "delete"] => some (.remove (r.text "path"))
  | ["config", "show"] => some .showConfig
  | _ => none

/-- A global parameter as the deepest command that was given it has it, else as defaulted. -/
def global? (r : Reading) (id : String) : Option Given :=
  let all := (r.flatMap (·.2)).filter (·.id == id)
  (all.filter (·.source == .given)).getLast?.orElse fun _ => all.getLast?

def globals (r : Reading) : Globals :=
  let value := fun id => (r.global? id).bind (·.values.head?)
  { config := value "config", home := value "home", verbose := (r.global? "verbose").isSome,
    logFormat := ((value "log_format").bind fun s => (LogFormat.parse s).toOption).getD .text }

end Reading

end Quorum.Cli
