import Quorum.Proofs.Publishing
import Quorum.Proofs.Layout

/-!
# Operations on a reliable memory store

On a memory store whose writes and removals all take effect, a write never fails and a run of
removals removes every object it is given. A publish, a signature and a broadcast each read and
decide before they write or remove anything, and once they have started to write they finish, so
each of them either returns or leaves the store as it found it (`Op.Atomic`).

What each leaves in the store is then read off a run that returned: a publish writes the payload
and the metadata of the version its policy chooses (`Op.publish_effect`), a signature writes one
valid signature into a version that has a payload (`Op.sign_effect`), and a broadcast that passed
its checks removes every file it listed (`Op.broadcast_effect`).
-/

namespace Quorum

namespace Blobs

/-- What preparing a signature reads from the objects `b`: the payload, and the metadata read
from its stored bytes. -/
def prepareSign (b : Blobs) (v : Version) : Except Fault Bundle := do
  let payload ← b.fetch v .unsigned
  let bytes ← b.fetch v .signdata
  let m ← decodeMetadata v bytes
  pure ⟨v, payload, m⟩

theorem prepareSign_eq_ok {b : Blobs} {v : Version} {bundle : Bundle}
    (h : b.prepareSign v = .ok bundle) :
    bundle.version = v ∧ b.get? (v.path .unsigned) = some bundle.payload ∧
      ∃ d, b.get? (v.path .signdata) = some d ∧ Metadata.decode d = .ok bundle.metadata := by
  unfold prepareSign at h
  cases hu : b.fetch v .unsigned with
  | error e => simp [hu] at h
  | ok payload =>
    cases hs : b.fetch v .signdata with
    | error e => simp [hu, hs] at h
    | ok d =>
      cases hd : decodeMetadata v d with
      | error e => simp [hu, hs, hd] at h
      | ok m =>
        simp only [hu, hs, hd, Except.ok_bind] at h
        cases h
        have hmeta : Metadata.decode d = .ok m := by
          unfold decodeMetadata at hd
          split at hd <;> simp_all
        exact ⟨rfl, fetch_eq_ok.mp hu, d, fetch_eq_ok.mp hs, hmeta⟩

end Blobs

namespace Op

theorem readsOnly_prepareSign (v : Version) : ReadsOnly (prepareSign v) (·.prepareSign v) :=
  ReadsOnly.bind (ReadsOnly.fetch _ _) fun _ => ReadsOnly.bind (ReadsOnly.fetch _ _) fun _ =>
    ReadsOnly.bind (ReadsOnly.readMetadata _ _) fun _ => ReadsOnly.pure _

theorem exec_completeSign_eq_ok {ρ τ : Type} (fate : StoreCall → ρ → Fate × ρ) (ch : ChainAnswer τ)
    {b : Bundle} {r : SignRequest} {w w' : Scene (Lossy ρ) τ} {path : ObjectPath}
    (h : exec (Lossy.answer fate) ch (completeSign b r) w = (.ok (.ok path), w')) :
    ∃ a sig, Artifact.signature? r.signer = .ok a ∧
      (ch (.sign b.payload r.multisigAddress r.keyName b.metadata) w.chain).1 = .ok sig ∧
      path = ⟨b.version, a⟩ ∧ w'.store.blobs = w.store.blobs.put (b.version.path a) sig := by
  unfold completeSign at h
  dsimp only at h
  split at h
  case h_2 e _ =>
    obtain ⟨_, _, h1, -⟩ := exec_bind_eq_ok _ ch h
    cases h1
  rename_i a ha
  obtain ⟨a', w1, h1, h⟩ := exec_bind_eq_ok _ ch h
  simp only [exec_pure, Prod.mk.injEq, Except.ok.injEq] at h1
  obtain ⟨rfl, rfl⟩ := h1
  obtain ⟨sig, w2, h2, h⟩ := exec_bind_eq_ok _ ch h
  rw [exec_chain] at h2
  simp only [Prod.mk.injEq, Except.ok.injEq] at h2
  obtain ⟨hsig, rfl⟩ := h2
  obtain ⟨w3, hput, h⟩ := exec_put_bind_eq_ok fate ch h
  simp only [exec_pure, Prod.mk.injEq, Except.ok.injEq] at h
  obtain ⟨rfl, rfl⟩ := h
  exact ⟨a, sig, ha, hsig, rfl, hput⟩

end Op

namespace Op

variable {τ α β : Type} (ch : ChainAnswer τ)

/-- The operation leaves the reliable memory store as it found it, whatever it returns. -/
def KeepsStore (op : Op α) : Prop :=
  ∀ w : Scene (Lossy Unit) τ, (exec (Lossy.answer Lossy.reliable) ch op w).2.store = w.store

def Completes (op : Op α) : Prop :=
  ∀ w : Scene (Lossy Unit) τ, ∃ a, (exec (Lossy.answer Lossy.reliable) ch op w).1 = .ok (.ok a)

/-- The operation returns a value on the reliable memory store, or leaves the store as it found
it. -/
def Atomic (op : Op α) : Prop :=
  ∀ w : Scene (Lossy Unit) τ,
    (∃ a, (exec (Lossy.answer Lossy.reliable) ch op w).1 = .ok (.ok a)) ∨
      (exec (Lossy.answer Lossy.reliable) ch op w).2.store = w.store

variable {ch} {x : Op α} {f : α → Op β}

theorem KeepsStore.bind (hx : KeepsStore ch x) (hf : ∀ a, KeepsStore ch (f a)) :
    KeepsStore ch (x >>= f) := by
  intro w
  have hw := hx w
  rw [exec_bind]
  rcases hr : exec (Lossy.answer Lossy.reliable) ch x w with ⟨d | e | a, w'⟩ <;> rw [hr] at hw
  · exact hw
  · exact hw
  · exact (hf a w').trans hw

theorem Completes.bind (hx : Completes ch x) (hf : ∀ a, Completes ch (f a)) :
    Completes ch (x >>= f) := by
  intro w
  obtain ⟨a, ha⟩ := hx w
  rw [exec_bind]
  rcases hr : exec (Lossy.answer Lossy.reliable) ch x w with ⟨d | e | a', w'⟩ <;> rw [hr] at ha
  · cases ha
  · cases ha
  · exact hf a' w'

theorem Atomic.of_keepsStore (h : KeepsStore ch x) : Atomic ch x :=
  fun w => .inr (h w)

theorem Atomic.of_completes (h : Completes ch x) : Atomic ch x :=
  fun w => .inl (h w)

theorem Atomic.bind_keepsStore (hx : KeepsStore ch x) (hf : ∀ a, Atomic ch (f a)) :
    Atomic ch (x >>= f) := by
  intro w
  have hw := hx w
  rw [exec_bind]
  rcases hr : exec (Lossy.answer Lossy.reliable) ch x w with ⟨d | e | a, w'⟩ <;> rw [hr] at hw
  · exact .inr hw
  · exact .inr hw
  · exact (hf a w').imp id fun h => h.trans hw

theorem Atomic.bind_completes (hx : Atomic ch x) (hf : ∀ a, Completes ch (f a)) :
    Atomic ch (x >>= f) := by
  intro w
  have hw := hx w
  rw [exec_bind]
  rcases hr : exec (Lossy.answer Lossy.reliable) ch x w with ⟨d | e | a, w'⟩ <;> rw [hr] at hw
  · exact .inr (hw.resolve_left fun ⟨_, h⟩ => by cases h)
  · exact .inr (hw.resolve_left fun ⟨_, h⟩ => by cases h)
  · exact .inl (hf a w')

theorem ReadsOnly.keepsStore {g : Blobs → Except Fault α} (h : ReadsOnly x g) : KeepsStore ch x := by
  intro w
  obtain ⟨reads, -, hrun⟩ := h Unit τ Lossy.reliable ch w
  rw [hrun]

theorem keepsStore_pure (a : α) : KeepsStore ch (pure a : Op α) :=
  fun _ => rfl

theorem keepsStore_throw (e : Fault) : KeepsStore ch (throw e : Op α) :=
  fun _ => rfl

theorem keepsStore_chain (c : ChainCall) : KeepsStore ch (chain c) :=
  fun _ => rfl

theorem keepsStore_abort (m : String) : KeepsStore ch (abort m : Op α) :=
  fun _ => rfl

theorem completes_put (p : String) (d : ByteArray) : Completes ch (store (.put p d)) :=
  fun _ => ⟨(), rfl⟩

theorem keepsStore_resolveNumbers (r : PublishRequest) : KeepsStore ch (resolveNumbers r) := by
  unfold resolveNumbers
  split
  · exact keepsStore_pure _
  · split
    · exact keepsStore_throw _
    · exact (keepsStore_chain _).bind fun _ => keepsStore_pure _

theorem keepsStore_newIndex (pre : String) (policy : ConflictPolicy) (V : List UInt64) :
    KeepsStore ch (newIndex pre policy V) := by
  unfold newIndex
  cases policy <;> cases V.getLast?
  case refuse.none => exact keepsStore_pure _
  case refuse.some => exact keepsStore_throw _
  case force.none => exact keepsStore_throw _
  case force.some => exact keepsStore_pure _
  case additional.none => exact keepsStore_throw _
  case additional.some highest =>
    by_cases hfit : highest.toNat + 1 < Nat.pow 2 64
    · simp only [if_pos hfit]
      exact keepsStore_pure _
    · simp only [if_neg hfit]
      exact keepsStore_abort _

variable (ch)

theorem exec_removeOne_reliable (s : Settings) (p : String) (w : Scene (Lossy Unit) τ) :
    ∃ w', exec (Lossy.answer Lossy.reliable) ch (removeOne s p) w = (.ok (.ok ()), w') ∧
      w'.store.blobs = w.store.blobs.erase p := by
  unfold removeOne
  rw [exec_delete_bind_ok ch (rfl : (Lossy.answer Lossy.reliable (.delete p) w.store).1 = .ok ()),
    exec_waitUntilAbsent_of_absent _ ch p _ _ (by simp [Lossy.answer, Lossy.reliable,
      Blobs.contains_erase])]
  exact ⟨_, rfl, rfl⟩

theorem run_removeEach_reliable (s : Settings) (removed paths : List String)
    (w : Scene (Lossy Unit) τ) :
    ∃ w', Program.run (Scene.answer (Lossy.answer Lossy.reliable) ch)
        (removeEach s removed paths) w = (.ok none, w') ∧
      w'.store.blobs = paths.foldl Blobs.erase w.store.blobs := by
  induction paths generalizing removed w with
  | nil => exact ⟨w, rfl, rfl⟩
  | cons p ps ih =>
    obtain ⟨w1, hrun1, hblobs1⟩ := exec_removeOne_reliable ch s p w
    obtain ⟨w', hrun, hblobs⟩ := ih (removed ++ [p]) w1
    rw [run_removeEach_cons, hrun1]
    exact ⟨w', hrun, by rw [hblobs, hblobs1, List.foldl_cons]⟩

theorem exec_removeAll_reliable (s : Settings) (pre : String) (paths : List String)
    (w : Scene (Lossy Unit) τ) :
    ∃ w', exec (Lossy.answer Lossy.reliable) ch (removeAll s pre paths) w = (.ok (.ok ()), w') ∧
      w'.store.blobs = paths.foldl Blobs.erase w.store.blobs := by
  obtain ⟨w', hrun, hblobs⟩ := run_removeEach_reliable ch s [] paths w
  have hexec : exec (Lossy.answer Lossy.reliable) ch (removeAll s pre paths) w =
      Program.run (Scene.answer (Lossy.answer Lossy.reliable) ch)
        ((removeEach s [] paths).bind _) w := rfl
  rw [Program.run_bind (Scene.answer (Lossy.answer Lossy.reliable) ch) (removeEach s [] paths),
    hrun] at hexec
  exact ⟨w', hexec, hblobs⟩

theorem exec_settle_reliable (s : Settings) (r : BroadcastRequest) (files : List Artifact)
    (result : Outcome) (w : Scene (Lossy Unit) τ) :
    ∃ (removes : Bool) (w' : Scene (Lossy Unit) τ),
      exec (Lossy.answer Lossy.reliable) ch (settle s r files result) w =
        (.ok (.ok ⟨result.code, result.txhash, removes⟩), w') ∧
      (removes = true ↔ r.cleanup = .always ∨ result.isSuccess = true) ∧
      w'.store.blobs = if removes then (files.map r.version.path).foldl Blobs.erase w.store.blobs
        else w.store.blobs := by
  unfold settle
  obtain ⟨w', hrun, hblobs⟩ := run_removeEach_reliable ch s [] (files.map r.version.path) w
  cases hc : r.cleanup <;> cases hs : result.isSuccess <;> simp only [if_true]
  case onSuccess.false =>
    exact ⟨false, w, rfl, by simp, rfl⟩
  all_goals
    rw [exec_lift_bind, hrun]
    exact ⟨true, w', rfl, by simp, hblobs⟩

theorem completes_removeAll (s : Settings) (pre : String) (paths : List String) :
    Completes ch (removeAll s pre paths) := fun w =>
  let ⟨_, hrun, _⟩ := exec_removeAll_reliable ch s pre paths w
  ⟨(), by rw [hrun]⟩

variable {ch}

theorem atomic_publish (s : Settings) (r : PublishRequest) : Atomic ch (publish s r) := by
  unfold publish
  refine Atomic.bind_keepsStore (keepsStore_resolveNumbers r) fun ⟨account, sequence⟩ => ?_
  refine Atomic.bind_keepsStore (ReadsOnly.listVersions r.queue).keepsStore fun V => ?_
  refine Atomic.bind_keepsStore (keepsStore_newIndex _ _ _) fun i => ?_
  have hwrite : ∀ (v : Version) (m : Metadata), Completes ch (do
      store (.put (v.path .unsigned) r.payload)
      store (.put (v.path .signdata) m.encode)
      pure (Published.mk v m)) := fun v m =>
    (completes_put _ _).bind fun _ => (completes_put _ _).bind fun _ _ => ⟨_, rfl⟩
  dsimp only
  split
  · exact Atomic.bind_keepsStore (ReadsOnly.listFiles _).keepsStore fun stale =>
      Atomic.of_completes ((completes_removeAll ch _ _ _).bind fun _ => hwrite _ _)
  · exact Atomic.of_completes (hwrite _ _)

theorem atomic_sign (r : SignRequest) : Atomic ch (sign r) := by
  unfold sign completeSign
  refine Atomic.bind_keepsStore (readsOnly_prepareSign r.version).keepsStore fun b => ?_
  have hwrite : ∀ file, Atomic ch (do
      let signature ← chain (.sign b.payload r.multisigAddress r.keyName b.metadata)
      store (.put (ObjectPath.mk b.version file).render signature)
      pure (ObjectPath.mk b.version file)) := fun file =>
    Atomic.bind_keepsStore (keepsStore_chain _) fun _ =>
      Atomic.of_completes ((completes_put _ _).bind fun _ _ => ⟨_, rfl⟩)
  dsimp only
  split
  · exact Atomic.bind_keepsStore (keepsStore_pure _) hwrite
  · exact Atomic.bind_keepsStore (keepsStore_throw _) hwrite

variable (ch)

theorem publish_effect (s : Settings) (r : PublishRequest) (w : Scene (Lossy Unit) τ) :
    let w' := (exec (Lossy.answer Lossy.reliable) ch (publish s r) w).2
    w'.store.blobs = w.store.blobs ∨
      ∃ (V : List UInt64) (v : Version) (stale : List String) (m : Metadata),
        w.store.blobs.versions r.queue = .ok V ∧ v.queue = r.queue ∧ r.policy.Chooses V v.index ∧
        (∀ p ∈ stale, v.pre.isPrefixOf p) ∧
        w'.store.blobs = ((stale.foldl Blobs.erase w.store.blobs).put (v.path .unsigned)
          r.payload).put (v.path .signdata) m.encode := by
  intro w'
  rcases atomic_publish s r w with ⟨pub, hok⟩ | hkeep
  · have hrun : exec (Lossy.answer Lossy.reliable) ch (publish s r) w = (.ok (.ok pub), w') :=
      Prod.ext hok rfl
    obtain ⟨-, -, V, -, -, -, hV, hchoose, hqueue, -, stale, -, hstale, hblobs⟩ :=
      exec_publish_eq_ok Lossy.reliable ch s r hrun
    exact .inr ⟨V, pub.version, stale, pub.metadata, hV, hqueue, hchoose, hstale, hblobs⟩
  · exact .inl (congrArg Lossy.blobs hkeep)

theorem sign_effect (r : SignRequest) (w : Scene (Lossy Unit) τ) :
    let w' := (exec (Lossy.answer Lossy.reliable) ch (sign r) w).2
    w'.store.blobs = w.store.blobs ∨
      ∃ (a : Artifact) (d : ByteArray), Artifact.signature? r.signer = .ok a ∧
        (w.store.blobs.get? (r.version.path .unsigned)).isSome ∧
        w'.store.blobs = w.store.blobs.put (r.version.path a) d := by
  intro w'
  rcases atomic_sign r w with ⟨path, hok⟩ | hkeep
  · have hrun : exec (Lossy.answer Lossy.reliable) ch (sign r) w = (.ok (.ok path), w') :=
      Prod.ext hok rfl
    unfold sign at hrun
    obtain ⟨b, w1, h1, h2⟩ := exec_bind_eq_ok _ ch hrun
    obtain ⟨reads, -, hprep⟩ := readsOnly_prepareSign r.version Unit τ Lossy.reliable ch w
    rw [hprep] at h1
    simp only [Prod.mk.injEq, Except.ok.injEq] at h1
    obtain ⟨hb, rfl⟩ := h1
    obtain ⟨hversion, hpayload, -⟩ := Blobs.prepareSign_eq_ok hb
    obtain ⟨a, d, hsig, -, -, hblobs⟩ := exec_completeSign_eq_ok Lossy.reliable ch h2
    refine .inr ⟨a, d, hsig, by simp [hpayload], ?_⟩
    rw [hblobs, hversion]
  · exact .inl (congrArg Lossy.blobs hkeep)

theorem broadcast_effect (s : Settings) (r : BroadcastRequest) (w : Scene (Lossy Unit) τ) :
    let w' := (exec (Lossy.answer Lossy.reliable) ch (broadcast s r) w).2
    w'.store.blobs = w.store.blobs ∨
      ∃ files, w.store.blobs.broadcastChecks r = .ok () ∧
        w.store.blobs.files r.version = .ok files ∧
        w'.store.blobs = (files.map r.version.path).foldl Blobs.erase w.store.blobs := by
  dsimp only
  obtain ⟨reads, -, hcases⟩ := exec_broadcast_cases Lossy.reliable ch s r w
  cases hc : w.store.blobs.broadcastChecks r with
  | error e =>
    rw [hc] at hcases
    rw [hcases]
    exact .inl rfl
  | ok u =>
    rw [hc] at hcases
    obtain ⟨p, hsends, hcases⟩ := hcases
    rcases hcases with ⟨e, w1, hstore, -, hrun⟩ | ⟨signed, e, w1, hstore, -, hrun⟩ |
      ⟨signed, result, w2, hstore, -, hrun⟩
    · rw [hrun]
      exact .inl (by rw [hstore])
    · rw [hrun]
      exact .inl (by rw [hstore])
    · -- the submission returned, and the version is settled
      obtain ⟨removes, w3, hrun3, -, hblobs⟩ := exec_settle_reliable ch s r p.files result w2
      rw [hrun, hrun3]
      split_ifs at hblobs
      · exact .inr ⟨p.files, rfl, hsends.files, by rw [hblobs, hstore]⟩
      · exact .inl (by rw [hblobs, hstore])

end Op

end Quorum
