import Quorum.Proofs.Inspect
import Quorum.Proofs.Removal

/-!
# The checks of a broadcast

Before it calls the chain, a broadcast only reads the store: it checks the request, lists the
versions of the queue and the files of the version, and downloads the payload, the metadata and
the signatures. On a memory store this part means a function of the objects,
`Blobs.prepareBroadcast` (`Op.readsOnly_prepareBroadcast`).
-/

namespace Quorum

namespace Blobs

/-- The metadata of a version read from its stored bytes, or the fault of unreadable ones. -/
def decodeMetadata (v : Version) (bytes : ByteArray) : Except Fault Metadata :=
  match Metadata.decode bytes with
  | .ok m => .ok m
  | .error e => .error (.corruptMetadata (v.path .signdata) e.message)

/-- What preparing a broadcast finds in the objects `b`: the checks and reads of the broadcast, in
its order, made on the objects. -/
def prepareBroadcast (b : Blobs) (r : BroadcastRequest) : Except Fault Prepared := do
  let v := r.version
  let node ← match r.node.filter (!·.isEmpty) with
    | some n => pure n
    | none => throw (.config ("no node configured for chain " ++ v.queue.chain ++ "; pass --node"))
  if r.multisigKey.isEmpty then
    throw (.config ("no local multisig key name for " ++ v.queue.key ++
      "; set local_name or pass --key"))
  let versions ← b.versions v.queue
  match versions.head? with
  | some pending => if pending < v.index then throw (.outOfOrderBroadcast v.index pending)
  | none => pure ()
  let files ← b.files v
  let signers := signerNames files
  if signers.length < r.threshold then
    throw (.insufficientSignatures r.threshold signers.length)
  let payload ← b.fetch v .unsigned
  let metadata ← decodeMetadata v (← b.fetch v .signdata)
  let signatures ← signers.mapM fun n => do return (n, ← b.fetch v (.signature n))
  return ⟨node, files, payload, metadata, signatures⟩

end Blobs

namespace Op

theorem ReadsOnly.readMetadata (v : Version) (bytes : ByteArray) :
    ReadsOnly (readMetadata v bytes) fun _ => Blobs.decodeMetadata v bytes := by
  unfold Op.readMetadata Blobs.decodeMetadata
  cases Metadata.decode bytes with
  | ok m => exact ReadsOnly.pure _
  | error e => exact ReadsOnly.throw _

theorem readsOnly_prepareBroadcast (r : BroadcastRequest) :
    ReadsOnly (prepareBroadcast r) (·.prepareBroadcast r) := by
  unfold Op.prepareBroadcast Blobs.prepareBroadcast
  dsimp only
  repeat' with_reducible first
    | exact ReadsOnly.throw_bind _ _ _
    | exact ReadsOnly.pure _
    | exact ReadsOnly.throw _
    | refine ReadsOnly.bind (ReadsOnly.listVersions _) fun _ => ?_
    | refine ReadsOnly.bind (ReadsOnly.listFiles _) fun _ => ?_
    | refine ReadsOnly.bind (ReadsOnly.fetch _ _) fun _ => ?_
    | refine ReadsOnly.bind (ReadsOnly.readMetadata _ _) fun _ => ?_
    | refine ReadsOnly.bind (ReadsOnly.mapM fun _ =>
        ReadsOnly.bind (ReadsOnly.fetch _ _) fun _ => ReadsOnly.pure _) fun _ => ?_
    | refine ReadsOnly.bind (ReadsOnly.pure _) fun _ => ?_
    | refine ReadsOnly.ite _ ?_ ?_
    -- a match of the code and the same match of the mirror: where the two share their
    -- matcher, one split takes both apart
    | (split <;> rename_i h <;> try simp only [h])

end Op

namespace Blobs

variable {b : Blobs}

/-- The checks of a broadcast on the objects `b`, in the order the broadcast makes them: a node
and a multisig key name are given; the versions of the queue can be listed and none is older
than the version; its files can be listed, and it has at least the threshold of signature files;
its payload and metadata are stored, and the metadata can be read. The result is the fault of the
first check that fails. -/
def broadcastChecks (b : Blobs) (r : BroadcastRequest) : Except Fault Unit := do
  let v := r.version
  if r.node.all String.isEmpty then
    throw (.config ("no node configured for chain " ++ v.queue.chain ++ "; pass --node"))
  if r.multisigKey.isEmpty then
    throw (.config ("no local multisig key name for " ++ v.queue.key ++
      "; set local_name or pass --key"))
  let versions ← b.versions v.queue
  if let some oldest := versions.min? then
    if oldest < v.index then throw (.outOfOrderBroadcast v.index oldest)
  let _ ← b.files v
  let count := (b.signatures v).length
  if count < r.threshold then throw (.insufficientSignatures r.threshold count)
  let _ ← b.fetch v .unsigned
  let _ ← decodeMetadata v (← b.fetch v .signdata)
  pure ()

/-- What a broadcast from the objects `b` sends to the chain once its checks pass. -/
structure Sends (b : Blobs) (r : BroadcastRequest) (p : Prepared) : Prop where
  node : r.node = some p.node ∧ p.node.isEmpty = false
  files : b.files r.version = .ok p.files
  payload : b.get? (r.version.path .unsigned) = some p.payload
  metadata : ∃ d, b.get? (r.version.path .signdata) = some d ∧ Metadata.decode d = .ok p.metadata
  signatures : p.signatures = b.signatures r.version
  ascending : (p.signatures.map Prod.fst).Pairwise (· < ·)

theorem fetch_eq_ok {v : Version} {a : Artifact} {d : ByteArray} :
    b.fetch v a = .ok d ↔ b.get? (v.path a) = some d := by
  unfold fetch
  split <;> simp_all

theorem head?_eq_min?_of_versions {q : Queue} {versions : List UInt64}
    (h : b.versions q = .ok versions) : versions.head? = versions.min? := by
  obtain ⟨hasc, -⟩ := collect_eq_ok q.versionOf (b.under q.pre) h List.Pairwise.nil
  refine (List.min?_eq_head? (hasc.imp fun {i j} hij => ?_)).symm
  rw [UInt64.min_def]
  simp [UInt64.le_of_lt (compareOfLessAndEq_eq_lt.mp hij)]

theorem mapM_fetch_signatures {v : Version} {sigs : List (String × ByteArray)}
    (h : ∀ x ∈ sigs, b.get? (v.path (.signature x.1)) = some x.2) :
    (sigs.map Prod.fst).mapM (fun n => Prod.mk n <$> b.fetch v (.signature n)) = .ok sigs := by
  induction sigs with
  | nil => rfl
  | cons x sigs ih =>
    have hx : b.fetch v (.signature x.1) = .ok x.2 := fetch_eq_ok.mpr (h x List.mem_cons_self)
    simp only [List.map_cons, List.mapM_cons, hx, ih fun y hy => h y (List.mem_cons_of_mem x hy)]
    rfl

theorem prepareBroadcast_of_checks (b : Blobs) (r : BroadcastRequest) :
    match b.broadcastChecks r with
    | .error e => b.prepareBroadcast r = .error e
    | .ok () => ∃ p, Sends b r p ∧ b.prepareBroadcast r = .ok p := by
  -- both make the same checks in the same order: split on the outcome of each in turn
  rcases hn : r.node with _ | n
  · simp [broadcastChecks, prepareBroadcast, hn]
  cases hne : n.isEmpty
  case true => simp [broadcastChecks, prepareBroadcast, Option.filter, *]
  cases hk : r.multisigKey.isEmpty
  case true => simp [broadcastChecks, prepareBroadcast, Option.filter, *]
  cases hv : b.versions r.version.queue
  case error e => simp [broadcastChecks, prepareBroadcast, Option.filter, *]
  rename_i versions
  have hhead := head?_eq_min?_of_versions hv
  rcases hm : versions.min? with _ | oldest
  rotate_left
  by_cases hold : oldest < r.version.index
  case pos => simp [broadcastChecks, prepareBroadcast, Option.filter, *]
  -- from here on both goals, with or without a listed version, go the same way
  all_goals
    cases hf : b.files r.version
    case error e => simp [broadcastChecks, prepareBroadcast, Option.filter, *]
    rename_i files
    have hnames := signerNames_of_files hf
    by_cases hc : (b.signatures r.version).length < r.threshold
    case pos => simp [broadcastChecks, prepareBroadcast, Option.filter, *]
    cases hu : b.fetch r.version .unsigned
    case error e => simp [broadcastChecks, prepareBroadcast, Option.filter, *]
    rename_i payload
    cases hs : b.fetch r.version .signdata
    case error e => simp [broadcastChecks, prepareBroadcast, Option.filter, *]
    rename_i d
    cases hd : decodeMetadata r.version d
    case error e => simp [broadcastChecks, prepareBroadcast, Option.filter, *]
    rename_i m
    have hsigs := mapM_fetch_signatures (b := b) (v := r.version) fun _ hx =>
      get?_of_mem_signatures hx
    have hmeta : Metadata.decode d = .ok m := by
      unfold decodeMetadata at hd
      split at hd <;> simp_all
    simp [broadcastChecks, prepareBroadcast, Option.filter, *]
    exact ⟨⟨hn, hne⟩, hf, fetch_eq_ok.mp hu, ⟨d, fetch_eq_ok.mp hs, hmeta⟩, rfl,
      signatures_ascending _⟩

end Blobs

end Quorum
