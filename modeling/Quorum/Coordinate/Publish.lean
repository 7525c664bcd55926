import Quorum.Coordinate.Inspect
import Quorum.Coordinate.Cleanup
import Quorum.Coordinate.Policy

/-!
# Publishing

A publish creates a new version of a queue holding the unsigned payload and its signing metadata.
The versions of a queue form a dense run of indices: a first publish creates version 0, a queued
one the version after the highest, and a forced one writes version 0 anew after removing its files.

The account number and sequence are taken as given or asked of a node. A queued transaction
signs for the sequence after those of the versions ahead of it, so a sequence asked of the node
is advanced by the new index. The payload is written before the metadata, so that a payload
without metadata reads as not yet signable.
-/

namespace Quorum

/-- What to publish. -/
structure PublishRequest where
  queue : Queue
  chainId : String
  payload : ByteArray
  /-- The multisig address, used when asking a node for the account's numbers. -/
  address : String
  account : Option UInt64
  sequence : Option UInt64
  node : Option String
  policy : ConflictPolicy
  description : String

/-- What a publish wrote. -/
structure Published where
  version : Version
  metadata : Metadata

def saturatingAdd (a b : UInt64) : UInt64 :=
  if a.toNat + b.toNat < Nat.pow 2 64 then a + b else 18446744073709551615

namespace Op

def abort {α : Type} (message : String) : Op α :=
  ExceptT.lift (.abort ⟨message⟩)

/-- The account number and sequence to sign for: both given, or the missing ones asked of the
node, which must then be named. -/
def resolveNumbers (r : PublishRequest) : Op (UInt64 × UInt64) :=
  match r.account, r.sequence with
  | some a, some s => pure (a, s)
  | _, _ =>
    match r.node.filter (!·.isEmpty) with
    | none => throw (.insufficientContext ("if --account and --sequence are not provided, " ++
        "a node must be specified in the config or with --node"))
    | some node => do
      let q ← chain (.account r.address node)
      pure (r.account.getD q.accountNumber, r.sequence.getD q.sequence)

/-- The index of the new version, given the versions of the queue, ascending. -/
def newIndex (pre : String) (policy : ConflictPolicy) (existing : List UInt64) : Op UInt64 :=
  match policy, existing.getLast? with
  | .refuse, some _ => throw (.alreadyExists pre)
  | .force, none => throw (.nothingToModify pre)
  | .additional, none => throw (.nothingToModify pre)
  | .additional, some highest =>
    if highest.toNat + 1 < Nat.pow 2 64 then pure (highest + 1) else abort "attempt to add with overflow"
  | _, _ => pure 0

def publish (s : Settings) (r : PublishRequest) : Op Published := do
  let (account, sequence) ← resolveNumbers r
  let existing ← listVersions r.queue
  let index ← newIndex r.queue.pre r.policy existing
  let sequence := if r.sequence.isSome then sequence else saturatingAdd sequence index
  let version := r.queue.version index
  if r.policy = .force then
    let stale ← listFiles version
    removeAll s version.pre (stale.map version.path)
  let metadata : Metadata := ⟨account, sequence, r.chainId, r.description⟩
  store (.put (version.path .unsigned) r.payload)
  store (.put (version.path .signdata) metadata.encode)
  return ⟨version, metadata⟩

end Op

end Quorum
