import Quorum.Host.Call
import Quorum.Chain.Error
import Quorum.Chain.Account
import Quorum.Chain.Outcome
import Quorum.Coordinate.Request
import Quorum.Text.Utf8
import Quorum.Coin

/-!
# The chain's command line client

The chain's own command line program signs, combines signatures, broadcasts and answers queries.
Each call writes its inputs into a fresh scratch directory, runs the program with a time limit,
and reads its standard output; the scratch directory is removed when the call ends, whatever
the outcome. A program that cannot start, runs too long or exits unsuccessfully is a chain error
that names the command line, with the program's output for an unsuccessful exit.

Options whose value is missing or empty are left out of the command line.
-/

namespace Quorum

/-- A chain's command line client. -/
structure ChainBinary where
  binary : String
  keyringBackend : Option String := none
  home : Option String := none
  timeout : Duration := Duration.ofSecs 120

def optionArgs (flag : String) : Option String → List String
  | some v => if v.isEmpty then [] else [flag, v]
  | none => []

def metadataArgs (m : Metadata) : List String :=
  ["--account-number", Nat.repr m.account.toNat, "--sequence", Nat.repr m.sequence.toNat,
    "--chain-id", m.chainId]

def exitStatusText (status : Nat) : String :=
  "exit status: " ++ Nat.repr status

namespace ChainBinary

def withKeyring (b : ChainBinary) (kb : String) : ChainBinary :=
  { b with keyringBackend := if kb.isEmpty then none else some kb }

def render (b : ChainBinary) (args : List String) : String :=
  b.binary ++ String.join (args.map (" " ++ ·))

def runRaw (b : ChainBinary) (args : List String) : Program Host (Except ChainError Finished) := do
  let command := b.render args
  match ← Host.call (.run b.binary args b.timeout) with
  | .failedToStart e => return .error (.spawn command e)
  | .timedOut => return .error (.timeout command b.timeout)
  | .finished f =>
    if f.status = 0 then return .ok f
    else return .error (.exit command (exitStatusText f.status)
      (Text.decodeLossy f.stdout ++ Text.decodeLossy f.stderr))

def run (b : ChainBinary) (args : List String) : Program Host (Except ChainError ByteArray) := do
  return (← b.runRaw args).map (·.stdout)

/-- Runs the program, giving its standard output followed by its standard error. -/
def runCombined (b : ChainBinary) (args : List String) :
    Program Host (Except ChainError ByteArray) := do
  return (← b.runRaw args).map fun f => f.stdout ++ f.stderr

def keyringArgs (b : ChainBinary) : List String :=
  optionArgs "--keyring-backend" b.keyringBackend ++ optionArgs "--home" b.home

/-- Runs `body` with a fresh scratch directory, removing the directory afterwards. -/
def withScratch {α : Type} (body : List String → Program Host (Except ChainError α)) :
    Program Host (Except ChainError α) := do
  match ← Host.call (.scratchDir "cosign-") with
  | .error e => return .error (.io e)
  | .ok dir =>
    let result ← body dir
    Host.files (Files.removeTree 64 dir)
    return result

def scratchFile (dir : List String) (name : String) (data : ByteArray) :
    Program Host (Except ChainError String) := do
  let path := dir ++ [name]
  match ← Host.call (.fs (.writeFile path data)) with
  | .ok () => return .ok (Host.pathText path)
  | .error e => return .error (.io e)

def signatureFiles (dir : List String) :
    Nat → List (String × ByteArray) → Program Host (Except ChainError (List String))
  | _, [] => return .ok []
  | i, (_, data) :: rest => do
    match ← scratchFile dir ("sig-" ++ Nat.repr i ++ ".json") data with
    | .error e => return .error e
    | .ok path =>
      match ← signatureFiles dir (i + 1) rest with
      | .error e => return .error e
      | .ok paths => return .ok (path :: paths)

def sign (b : ChainBinary) (payload : ByteArray) (multisigAddress keyName : String)
    (m : Metadata) : Program Host (Except ChainError ByteArray) :=
  withScratch fun dir => do
    match ← scratchFile dir "unsigned.json" payload with
    | .error e => return .error e
    | .ok unsigned =>
      b.run (["tx", "sign", unsigned, "--multisig", multisigAddress, "--from", keyName] ++
        metadataArgs m ++ ["--sign-mode", "amino-json", "--offline"] ++ b.keyringArgs)

/-- The signed transaction combined from `payload` and the signatures, in the order given. -/
def aggregate (b : ChainBinary) (payload : ByteArray) (multisigKey : String)
    (signatures : List (String × ByteArray)) (m : Metadata) (node : Option String) :
    Program Host (Except ChainError ByteArray) :=
  withScratch fun dir => do
    match ← scratchFile dir "unsigned.json" payload with
    | .error e => return .error e
    | .ok unsigned =>
      match ← signatureFiles dir 0 signatures with
      | .error e => return .error e
      | .ok sigs =>
        b.run (["tx", "multisign", unsigned, multisigKey] ++ sigs ++ metadataArgs m ++
          ["--offline"] ++ optionArgs "--keyring-backend" b.keyringBackend ++
          optionArgs "--node" node ++ optionArgs "--home" b.home)

def submit (b : ChainBinary) (signed : ByteArray) (node : String) :
    Program Host (Except ChainError Outcome) :=
  withScratch fun dir => do
    match ← scratchFile dir "signed.json" signed with
    | .error e => return .error e
    | .ok path =>
      match ← b.runCombined ["tx", "broadcast", path, "--node", node] with
      | .error e => return .error e
      | .ok out => return Outcome.parse out

def account (b : ChainBinary) (address node : String) :
    Program Host (Except ChainError AccountNumbers) := do
  match ← b.run ["query", "--node", node, "account", address, "--output", "json"] with
  | .error e => return .error e
  | .ok out => return parseAccount out

def balance (b : ChainBinary) (address denom node : String) :
    Program Host (Except ChainError Nat) := do
  match ← b.run (["query", "bank", "balances", "--output", "json"] ++ optionArgs "--node" (some node) ++
      [address]) with
  | .error e => return .error e
  | .ok out => return parseBalance out denom

/-- Refuses a delegation that the account cannot pay for: the balance of the amount's
denomination must cover the amount plus the fee when the fee is in the same denomination, and
the amount alone otherwise or when the sum does not fit. A balance that cannot be read lets the
delegation pass. -/
def ensureBalance (b : ChainBinary) (address node : String) (amount fees : Coin) :
    Program Host (Except ChainError Unit) := do
  match ← b.balance address amount.denom node with
  | .error _ => return .ok ()
  | .ok balance =>
    let required := (amount.add? fees).getD amount
    if balance < required.amount then
      return .error (.insufficientBalance (Nat.repr balance ++ amount.denom) required.render)
    else return .ok ()

def serve (b : ChainBinary) : (c : ChainCall) → Program Host (Except Fault c.Reply)
  | .account address node => do return (← b.account address node).mapError ChainError.toFault
  | .sign payload addr keyName m => do
    return (← b.sign payload addr keyName m).mapError ChainError.toFault
  | .aggregate payload key sigs m node => do
    return (← b.aggregate payload key sigs m node).mapError ChainError.toFault
  | .submit signed node => do return (← b.submit signed node).mapError ChainError.toFault

end ChainBinary

end Quorum
