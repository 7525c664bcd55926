import Quorum.Proofs.Replay
import Quorum.Proofs.Signdata
import Quorum.Coordinate.Publish

/-!
# What a publish writes

A publish finds the account number and sequence to sign for, lists the versions of the queue,
chooses the index of the new version by its policy (`ConflictPolicy.Chooses`), and writes the
payload and then the metadata. On a memory store whose writes may fail, a publish that succeeds
has found its numbers without touching the store and has written both objects of the new version,
a forced publish after removing the files of version 0 (`Op.exec_publish_eq_ok`).
-/

namespace Quorum

/-- The index that a publish under a policy gives its new version when the versions `V` are
listed: 0 for a first publish, which needs an empty queue, and for a forced one, which needs a
queued version; one past the highest listed version for a queued publish. -/
def ConflictPolicy.Chooses : ConflictPolicy → List UInt64 → UInt64 → Prop
  | .refuse, V, i => V = [] ∧ i = 0
  | .force, V, i => V ≠ [] ∧ i = 0
  | .additional, V, i => (∃ hi ∈ V, i.toNat = hi.toNat + 1) ∧ ∀ j ∈ V, j < i

theorem Blobs.versions_ascending {b : Blobs} {q : Queue} {V : List UInt64}
    (h : b.versions q = .ok V) : V.Pairwise (· < ·) :=
  (collect_eq_ok q.versionOf (b.under q.pre) h List.Pairwise.nil).1.imp compareOfLessAndEq_eq_lt.mp

theorem toNat_saturatingAdd (a b : UInt64) :
    (saturatingAdd a b).toNat = min (a.toNat + b.toNat) (UInt64.size - 1) := by
  have hsize : Nat.pow 2 64 = UInt64.size := rfl
  unfold saturatingAdd
  split
  · rename_i h
    rw [UInt64.toNat_add, hsize] at *
    rw [Nat.mod_eq_of_lt h]
    omega
  · rename_i h
    rw [hsize] at h
    simp only [UInt64.reduceToNat]
    rw [UInt64.size] at h ⊢
    omega

namespace Lossy

variable {ρ : Type}

theorem blobs_of_put_ok {fate : StoreCall → ρ → Fate × ρ} {p : String} {d : ByteArray}
    {s : Lossy ρ} (h : (answer fate (.put p d) s).1 = .ok ()) :
    (answer fate (.put p d) s).2.blobs = s.blobs.put p d := by
  simp only [answer] at h ⊢
  rcases hf : fate (.put p d) s.env with ⟨_ | e | _, env⟩ <;> simp_all

end Lossy

namespace Op

section Calls

variable {σ τ α β : Type} (st : StoreAnswer σ) (ch : ChainAnswer τ)

theorem exec_bind_eq_ok {x : Op α} {f : α → Op β} {w w'' : Scene σ τ} {b : β}
    (h : exec st ch (x >>= f) w = (.ok (.ok b), w'')) :
    ∃ a w', exec st ch x w = (.ok (.ok a), w') ∧ exec st ch (f a) w' = (.ok (.ok b), w'') := by
  rw [exec_bind] at h
  rcases hx : exec st ch x w with ⟨d | e | a, w'⟩ <;> rw [hx] at h
  · cases h
  · cases h
  · exact ⟨a, w', rfl, h⟩

theorem exec_resolveNumbers_given {r : PublishRequest} {a s : UInt64} (ha : r.account = some a)
    (hs : r.sequence = some s) (w : Scene σ τ) :
    exec st ch (resolveNumbers r) w = (.ok (.ok (a, s)), w) := by
  simp only [resolveNumbers, ha, hs]
  rfl

theorem resolveNumbers_eq_ok {r : PublishRequest} {w w' : Scene σ τ} {a s : UInt64}
    (h : exec st ch (resolveNumbers r) w = (.ok (.ok (a, s)), w')) :
    w'.store = w.store ∧
      match r.sequence with
      | some n => s = n
      | none => ∃ node q, r.node = some node ∧ (ch (.account r.address node) w.chain).1 = .ok q ∧
          s = q.sequence := by
  unfold resolveNumbers at h
  split at h
  · rename_i a' s' ha hs
    simp only [exec_pure, Prod.mk.injEq, Except.ok.injEq] at h
    obtain ⟨⟨rfl, rfl⟩, rfl⟩ := h
    simp [hs]
  · split at h
    · simp at h
    · rename_i node hnode
      cases hq : (ch (.account r.address node) w.chain).1 with
      | error e =>
        rw [exec_chain_bind_error st ch hq] at h
        cases h
      | ok q =>
        rw [exec_chain_bind_ok st ch hq, exec_pure] at h
        simp only [Prod.mk.injEq, Except.ok.injEq] at h
        obtain ⟨⟨rfl, rfl⟩, rfl⟩ := h
        refine ⟨rfl, ?_⟩
        cases hs : r.sequence with
        | some n => simp
        | none => exact ⟨node, q, (Option.filter_eq_some_iff.mp hnode).1, hq, rfl⟩

theorem newIndex_eq_ok {pre : String} {policy : ConflictPolicy} {V : List UInt64} {i : UInt64}
    {w w' : Scene σ τ} (hV : V.Pairwise (· < ·))
    (h : exec st ch (newIndex pre policy V) w = (.ok (.ok i), w')) :
    w' = w ∧ policy.Chooses V i := by
  unfold newIndex at h
  cases policy <;> cases hl : V.getLast? <;> simp only [hl] at h
  case refuse.none =>
    simp only [exec_pure, Prod.mk.injEq, Except.ok.injEq] at h
    obtain ⟨rfl, rfl⟩ := h
    exact ⟨rfl, List.getLast?_eq_none_iff.mp hl, rfl⟩
  case force.some hi =>
    simp only [exec_pure, Prod.mk.injEq, Except.ok.injEq] at h
    obtain ⟨rfl, rfl⟩ := h
    exact ⟨rfl, fun hnil => by simp [hnil] at hl, rfl⟩
  case additional.some hi =>
    split at h
    · rename_i hfit
      simp only [exec_pure, Prod.mk.injEq, Except.ok.injEq] at h
      obtain ⟨rfl, rfl⟩ := h
      have hnat : (hi + 1).toNat = hi.toNat + 1 := by
        rw [UInt64.toNat_add, UInt64.toNat_one]
        exact Nat.mod_eq_of_lt hfit
      refine ⟨rfl, ⟨hi, List.mem_of_getLast? hl, hnat⟩, fun j hj => ?_⟩
      -- the listed versions ascend, so the last is the highest
      obtain ⟨init, rfl⟩ := List.getLast?_eq_some_iff.mp hl
      have hle : j.toNat ≤ hi.toNat := by
        rcases List.mem_append.mp hj with hj | hj
        · exact Nat.le_of_lt (UInt64.lt_iff_toNat_lt.mp
            ((List.pairwise_append.mp hV).2.2 j hj hi List.mem_cons_self))
        · simp_all
      rw [UInt64.lt_iff_toNat_lt, hnat]
      omega
    · rw [abort, exec_lift] at h
      cases h
  all_goals simp at h

end Calls

variable {ρ τ β : Type} (fate : StoreCall → ρ → Fate × ρ) (ch : ChainAnswer τ)

theorem exec_put_bind_eq_ok {p : String} {d : ByteArray} {f : Unit → Op β}
    {w w' : Scene (Lossy ρ) τ} {b : β}
    (h : exec (Lossy.answer fate) ch (store (.put p d) >>= f) w = (.ok (.ok b), w')) :
    ∃ w1 : Scene (Lossy ρ) τ, w1.store.blobs = w.store.blobs.put p d ∧
      exec (Lossy.answer fate) ch (f ()) w1 = (.ok (.ok b), w') := by
  obtain ⟨u, w1, h1, h2⟩ := exec_bind_eq_ok _ ch h
  rw [exec_store] at h1
  simp only [Prod.mk.injEq] at h1
  obtain ⟨hok, rfl⟩ := h1
  have hput : (Lossy.answer fate (.put p d) w.store).1 = .ok () := by
    revert hok
    cases (Lossy.answer fate (.put p d) w.store).1 <;> simp [Except.mapError]
    intro _
    rfl
  exact ⟨_, Lossy.blobs_of_put_ok hput, h2⟩

theorem exec_removeAll_eq_ok (s : Settings) (pre : String) (paths : List String)
    {w w' : Scene (Lossy ρ) τ}
    (hpresent : ∀ p ∈ paths, w.store.blobs.contains p) (hnodup : paths.Nodup)
    (h : exec (Lossy.answer fate) ch (removeAll s pre paths) w = (.ok (.ok ()), w')) :
    w'.store.blobs = paths.foldl Blobs.erase w.store.blobs := by
  obtain ⟨w1, done, rest, hsplit, hblobs, hout, -⟩ := run_removeEach fate ch s [] paths w hpresent hnodup
  have hexec : exec (Lossy.answer fate) ch (removeAll s pre paths) w =
      Program.run (Scene.answer (Lossy.answer fate) ch) ((removeEach s [] paths).bind _) w := rfl
  rw [Program.run_bind (Scene.answer (Lossy.answer fate) ch) (removeEach s [] paths)] at hexec
  rcases hout with ⟨hrun, rfl⟩ | ⟨p, cause, -, hrun, -⟩ <;> rw [hrun] at hexec <;> rw [hexec] at h
  · cases h
    rw [hblobs, ← hsplit, List.append_nil]
  · cases h

theorem exec_writeVersion_eq_ok {v : Version} {payload : ByteArray} {m : Metadata}
    {w w' : Scene (Lossy ρ) τ} {pub : Published}
    (h : exec (Lossy.answer fate) ch (do
      store (.put (v.path .unsigned) payload)
      store (.put (v.path .signdata) m.encode)
      pure (Published.mk v m)) w = (.ok (.ok pub), w')) :
    pub = ⟨v, m⟩ ∧ w'.store.blobs =
      (w.store.blobs.put (v.path .unsigned) payload).put (v.path .signdata) m.encode := by
  obtain ⟨w1, hput1, h⟩ := exec_put_bind_eq_ok fate ch h
  obtain ⟨w2, hput2, h⟩ := exec_put_bind_eq_ok fate ch h
  rw [exec_pure] at h
  simp only [Prod.mk.injEq, Except.ok.injEq] at h
  obtain ⟨rfl, rfl⟩ := h
  exact ⟨rfl, by rw [hput2, hput1]⟩

theorem exec_publish_eq_ok (s : Settings) (r : PublishRequest) {w w' : Scene (Lossy ρ) τ}
    {pub : Published} (h : exec (Lossy.answer fate) ch (publish s r) w = (.ok (.ok pub), w')) :
    ∃ account sequence V w1,
      exec (Lossy.answer fate) ch (resolveNumbers r) w = (.ok (.ok (account, sequence)), w1) ∧
      w1.store = w.store ∧ w.store.blobs.versions r.queue = .ok V ∧
      r.policy.Chooses V pub.version.index ∧ pub.version.queue = r.queue ∧
      pub.metadata = ⟨account, if r.sequence.isSome then sequence
        else saturatingAdd sequence pub.version.index, r.chainId, r.description⟩ ∧
      ∃ stale : List String, (r.policy ≠ .force → stale = []) ∧
        (∀ p ∈ stale, pub.version.pre.isPrefixOf p) ∧
        w'.store.blobs = (((stale.foldl Blobs.erase w.store.blobs).put
          (pub.version.path .unsigned) r.payload).put (pub.version.path .signdata)
            pub.metadata.encode) := by
  unfold publish at h
  obtain ⟨⟨account, sequence⟩, w1, h1, h⟩ := exec_bind_eq_ok _ ch h
  have hstore1 := (resolveNumbers_eq_ok _ ch h1).1
  dsimp only at h
  obtain ⟨V, w2, h2, h⟩ := exec_bind_eq_ok _ ch h
  obtain ⟨reads, -, hlist⟩ := ReadsOnly.listVersions r.queue _ _ fate ch w1
  rw [hlist] at h2
  simp only [Prod.mk.injEq, Except.ok.injEq] at h2
  obtain ⟨hV, rfl⟩ := h2
  rw [hstore1] at hV
  obtain ⟨index, w3, h3, h⟩ := exec_bind_eq_ok _ ch h
  obtain ⟨rfl, hchoose⟩ := newIndex_eq_ok _ ch (Blobs.versions_ascending hV) h3
  have hstore2 : ({ w1 with log := w1.log ++ reads } : Scene (Lossy ρ) τ).store = w.store := hstore1
  by_cases hf : r.policy = .force
  · rw [if_pos hf] at h
    obtain ⟨files, w4, h4, h⟩ := exec_bind_eq_ok _ ch h
    obtain ⟨reads4, -, hlist4⟩ := ReadsOnly.listFiles (r.queue.version index) _ _ fate ch
      { w1 with log := w1.log ++ reads }
    rw [hlist4, hstore2] at h4
    simp only [Prod.mk.injEq, Except.ok.injEq] at h4
    obtain ⟨hfiles, rfl⟩ := h4
    obtain ⟨u, wx, h5, h⟩ := exec_bind_eq_ok _ ch h
    obtain ⟨hnodup, hpresent⟩ := Blobs.paths_of_files hfiles
    have hwx := exec_removeAll_eq_ok fate ch s _ _ (by simpa only [hstore1] using hpresent) hnodup h5
    obtain ⟨rfl, hw'⟩ := exec_writeVersion_eq_ok fate ch h
    refine ⟨account, sequence, V, w1, h1, hstore1, hV, hchoose, rfl, rfl,
      files.map (r.queue.version index).path, fun hnf => absurd hf hnf, fun p hp => ?_,
      by rw [hw', hwx]⟩
    obtain ⟨a, -, rfl⟩ := List.mem_map.mp hp
    simp [Version.path, isPrefixOf_iff]
  · rw [if_neg hf] at h
    obtain ⟨rfl, hw'⟩ := exec_writeVersion_eq_ok fate ch h
    exact ⟨account, sequence, V, w1, h1, hstore1, hV, hchoose, rfl, rfl, [], fun _ => rfl,
      by simp, by rw [hw', hstore2]; rfl⟩

/-- The sequence a publish writes into the metadata of the version it creates: a given sequence as
it is; otherwise the sequence the node reports, advanced by the index of the new version and kept
within 64 bits. The new index is one past the highest listed version for a queued publish and 0
otherwise, so a queued publish counts every index below it, also those of versions already
broadcast. -/
theorem publish_writes_sequence (s : Settings) (r : PublishRequest) {w w' : Scene (Lossy ρ) τ}
    {pub : Published} (h : exec (Lossy.answer fate) ch (publish s r) w = (.ok (.ok pub), w')) :
    (∃ d, w'.store.blobs.get? (pub.version.path .signdata) = some d ∧
      Metadata.decode d = .ok pub.metadata) ∧
    pub.version.queue = r.queue ∧
    (∃ V, w.store.blobs.versions r.queue = .ok V ∧ r.policy.Chooses V pub.version.index) ∧
    match r.sequence with
    | some n => pub.metadata.sequence = n
    | none => ∃ node q, r.node = some node ∧ (ch (.account r.address node) w.chain).1 = .ok q ∧
        pub.metadata.sequence.toNat =
          min (q.sequence.toNat + pub.version.index.toNat) (UInt64.size - 1) := by
  obtain ⟨account, sequence, V, w1, h1, -, hV, hchoose, hqueue, hmeta, stale, -, -, hblobs⟩ :=
    exec_publish_eq_ok fate ch s r h
  refine ⟨⟨_, by simp [hblobs], Metadata.decode_encode _⟩, hqueue, ⟨V, hV, hchoose⟩, ?_⟩
  have hseq := (resolveNumbers_eq_ok _ ch h1).2
  rw [hmeta]
  cases hs : r.sequence with
  | some n =>
    rw [hs] at hseq
    simp [hseq]
  | none =>
    rw [hs] at hseq
    obtain ⟨node, q, hnode, hq, rfl⟩ := hseq
    exact ⟨node, q, hnode, hq, by simp [toNat_saturatingAdd]⟩

end Op

namespace Sample

/-- A queue whose versions 0 and 1 have been broadcast and whose version 2 is still pending. -/
def pendingQueue : Queue := version.queue

def pendingStore : Blobs :=
  (Blobs.empty.put ((pendingQueue.version 2).path .unsigned) "\x7b\x7d".toUTF8).put
    ((pendingQueue.version 2).path .signdata)
    "\x7b\"account\":5,\"sequence\":14,\"chain-id\":\"c-1\"\x7d".toUTF8

def pendingWorld : Scene (Lossy Unit) Unit := ⟨⟨(), pendingStore⟩, (), []⟩

def accounts : ChainAnswer Unit := fun c _ => (match c with
  | .account _ _ => .ok ⟨5, 12⟩
  | .sign _ _ _ _ => .ok "sig".toUTF8
  | .aggregate _ _ _ _ _ => .ok "signed".toUTF8
  | .submit _ _ => .ok ⟨0, "ABCDEF"⟩, ())

def queued : PublishRequest :=
  ⟨pendingQueue, "c-1", "\x7b\x7d".toUTF8, "cosmos1multi", none, none, some "node", .additional, ""⟩

end Sample

theorem Published.run_eq_of_parts {x : Except Defect (Except Fault Published)} {v : Version}
    {m : Metadata}
    (h : (x.toOption.bind Except.toOption).map (fun p => (p.version, p.metadata)) = some (v, m)) :
    x = .ok (.ok ⟨v, m⟩) := by
  rcases x with d | e | ⟨v', m'⟩ <;> simp_all [Except.toOption]

namespace Op

/-- With versions 0 and 1 already broadcast and version 2 pending, a queued publish creates version
3 and signs for sequence 12 + 3, where one pending version ahead of it would make 12 + 1. -/
theorem publish_sequence_counts_broadcast_versions :
    let published := ((exec (Lossy.answer Lossy.reliable) Sample.accounts
      (publish Sample.settings Sample.queued) Sample.pendingWorld).1.toOption.bind Except.toOption)
    (Sample.pendingWorld.store.blobs.versions Sample.pendingQueue).toOption = some [2] ∧
      (Sample.accounts (.account "cosmos1multi" "node") ()).1.toOption = some ⟨5, 12⟩ ∧
      published.map (·.version.index) = some 3 ∧
      published.map (·.metadata.sequence.toNat) = some 15 ∧
      15 ≠ 12 + ([(2 : UInt64)].filter (· < 3)).length :=
  ⟨by decide +kernel, rfl, by decide +kernel, by decide +kernel, by decide⟩

/-- On the queue whose version 2 is pending, a queued publish whose sequence is asked of the node
creates version 3 and writes the node's sequence 12 advanced by 3. -/
theorem publish_writes_sequence_on_pending_queue :
    let run := exec (Lossy.answer Lossy.reliable) Sample.accounts
      (publish Sample.settings Sample.queued) Sample.pendingWorld
    let pub : Published := ⟨Sample.pendingQueue.version 3, ⟨5, 15, "c-1", ""⟩⟩
    run = (.ok (.ok pub), run.2) ∧
      (∃ d, run.2.store.blobs.get? (pub.version.path .signdata) = some d ∧
        Metadata.decode d = .ok pub.metadata) ∧
      pub.version.queue = Sample.queued.queue ∧
      (∃ V, Sample.pendingWorld.store.blobs.versions Sample.queued.queue = .ok V ∧
        Sample.queued.policy.Chooses V pub.version.index) ∧
      ∃ node q, Sample.queued.node = some node ∧
        (Sample.accounts (.account Sample.queued.address node) ()).1 = .ok q ∧
        pub.metadata.sequence.toNat =
          min (q.sequence.toNat + pub.version.index.toNat) (UInt64.size - 1) := by
  intro run pub
  have h : run = (.ok (.ok pub), run.2) :=
    Prod.ext (Published.run_eq_of_parts (by decide +kernel)) rfl
  exact ⟨h, publish_writes_sequence Lossy.reliable Sample.accounts Sample.settings Sample.queued h⟩

end Op

end Quorum
