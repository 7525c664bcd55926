import Quorum.Coordinate.Sign
import Quorum.Coordinate.Cleanup

/-!
# Broadcasting

Once enough co-signers have signed a version, anyone may combine the signatures into a signed
transaction and submit it. The checks come in a fixed order: a node and a multisig key name must
be given, no older version of the queue may still be pending, and the number of signatures must
reach the threshold. Only then are the payload, the metadata and the signatures downloaded,
combined and submitted.

The result code of the chain is not judged here. What happens to the version afterwards is up to
the cleanup policy: it is always removed, so that a transaction that may have failed is never
submitted twice, or kept for a retry when the code is not zero. A removal that fails after the
submission reports the code and hash of the submitted transaction.
-/

namespace Quorum

/-- What to do with a version once its transaction was submitted. -/
inductive CleanupPolicy where
  | always
  | onSuccess
  deriving DecidableEq, Repr

/-- What to broadcast. -/
structure BroadcastRequest where
  version : Version
  multisigKey : String
  node : Option String
  threshold : Nat
  cleanup : CleanupPolicy

/-- What a broadcast did. -/
structure Broadcasted where
  code : Nat
  txhash : String
  removed : Bool

def signerNames (files : List Artifact) : List String :=
  files.filterMap fun
    | .signature n => some n
    | _ => none

/-- What a broadcast sends once its checks have passed: the node, the files of the version, and
the payload, metadata and signatures read from them. -/
structure Prepared where
  node : String
  files : List Artifact
  payload : ByteArray
  metadata : Metadata
  signatures : List (String × ByteArray)

namespace Op

/-- Makes the checks of a broadcast in order and downloads what its transaction is made of. -/
def prepareBroadcast (r : BroadcastRequest) : Op Prepared := do
  let v := r.version
  let node ← match r.node.filter (!·.isEmpty) with
    | some n => pure n
    | none => throw (.config ("no node configured for chain " ++ v.queue.chain ++ "; pass --node"))
  if r.multisigKey.isEmpty then
    throw (.config ("no local multisig key name for " ++ v.queue.key ++
      "; set local_name or pass --key"))
  let versions ← listVersions v.queue
  match versions.head? with
  | some pending => if pending < v.index then throw (.outOfOrderBroadcast v.index pending)
  | none => pure ()
  let files ← listFiles v
  let signers := signerNames files
  if signers.length < r.threshold then
    throw (.insufficientSignatures r.threshold signers.length)
  let payload ← fetch v .unsigned
  let metadata ← readMetadata v (← fetch v .signdata)
  let signatures ← signers.mapM fun n => do return (n, ← fetch v (.signature n))
  return ⟨node, files, payload, metadata, signatures⟩

/-- Removes a version whose transaction was submitted with `result`, as the cleanup policy says.
The transaction is already on its way, so a failed removal reports the result with what was and
was not removed. -/
def settle (s : Settings) (r : BroadcastRequest) (files : List Artifact) (result : Outcome) :
    Op Broadcasted := do
  let v := r.version
  let remove := match r.cleanup with
    | .always => true
    | .onSuccess => result.isSuccess
  if remove then
    match ← ExceptT.lift (removeEach s [] (files.map v.path)) with
    | some st =>
      throw (.cleanupAfterBroadcast result.code result.txhash v.pre st.removed st.remaining st.cause)
    | none => pure ()
  return ⟨result.code, result.txhash, remove⟩

/-- Combines the signatures, submits the transaction, and removes the version as the cleanup
policy says. -/
def submitPrepared (s : Settings) (r : BroadcastRequest) (p : Prepared) : Op Broadcasted := do
  let signed ← chain (.aggregate p.payload r.multisigKey p.signatures p.metadata (some p.node))
  let result ← chain (.submit signed p.node)
  settle s r p.files result

def broadcast (s : Settings) (r : BroadcastRequest) : Op Broadcasted := do
  submitPrepared s r (← prepareBroadcast r)

end Op

end Quorum
