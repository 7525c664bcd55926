import Quorum.Proofs.Settle
import Quorum.Coordinate.Delete

/-!
# A broadcast is not repeated once its payload is gone

After a broadcast has submitted its transaction, the cleanup removes the files of the version in
listing order, and the payload comes first. Once the payload is gone, signing and broadcasting the
version fail at their first read, and deleting it only removes, so no later operation on the
version calls the chain again (`Op.broadcast_not_repeated_after_cleanup`).

When the cleanup removes nothing, because the first removal fails, the version is as it was and a
second broadcast submits the transaction again (`Op.broadcast_repeated_after_failed_cleanup`).
-/

namespace Quorum

/-- Whether a broadcast reports that it removed files of its version: all of them, or some before
the cleanup stopped. -/
def reportsRemoval : Except Defect (Except Fault Broadcasted) → Bool
  | .ok (.ok b) => b.removed
  | .ok (.error (.cleanupAfterBroadcast _ _ _ removed _ _)) => !removed.isEmpty
  | _ => false

/-- An operation on one version: signing it, broadcasting it, or deleting it. -/
inductive Touch where
  | sign (keyName signer multisigAddress : String)
  | broadcast (multisigKey : String) (node : Option String) (threshold : Nat)
      (cleanup : CleanupPolicy)
  | delete

namespace Touch

variable {ρ τ : Type} (fate : StoreCall → ρ → Fate × ρ) (ch : ChainAnswer τ) (s : Settings)
  (v : Version)

def step : Touch → Scene (Lossy ρ) τ → Scene (Lossy ρ) τ
  | .sign key signer address, w =>
    (Op.exec (Lossy.answer fate) ch (Op.sign ⟨v, key, signer, address⟩) w).2
  | .broadcast key node threshold cleanup, w =>
    (Op.exec (Lossy.answer fate) ch (Op.broadcast s ⟨v, key, node, threshold, cleanup⟩) w).2
  | .delete, w => (Op.exec (Lossy.answer fate) ch (Op.delete s v) w).2

def run : List Touch → Scene (Lossy ρ) τ → Scene (Lossy ρ) τ
  | [], w => w
  | t :: ts, w => run ts (step fate ch s v t w)

end Touch

namespace Op

variable {ρ τ : Type} (fate : StoreCall → ρ → Fate × ρ) (ch : ChainAnswer τ)

theorem exec_sign_of_absent (r : SignRequest) (w : Scene (Lossy ρ) τ)
    (h : w.store.blobs.get? (r.version.path .unsigned) = none) :
    ∃ reads : List Answered, (∀ e ∈ reads, e.1.isRead) ∧
      (exec (Lossy.answer fate) ch (sign r) w).2 = { w with log := w.log ++ reads } := by
  obtain ⟨reads, hreads, hfetch⟩ := ReadsOnly.fetch r.version .unsigned ρ τ fate ch w
  have hmissing : w.store.blobs.fetch r.version .unsigned =
      .error (.versionNotFound (r.version.path .unsigned)) := by
    simp [Blobs.fetch, h]
  dsimp only at hfetch
  rw [hmissing] at hfetch
  refine ⟨reads, hreads, ?_⟩
  unfold sign prepareSign
  rw [exec_bind_error _ _ (exec_bind_error _ _ hfetch)]

theorem exec_broadcast_of_absent (s : Settings) (r : BroadcastRequest) (w : Scene (Lossy ρ) τ)
    (h : w.store.blobs.get? (r.version.path .unsigned) = none) :
    ∃ reads : List Answered, (∀ e ∈ reads, e.1.isRead) ∧
      (exec (Lossy.answer fate) ch (broadcast s r) w).2 = { w with log := w.log ++ reads } := by
  obtain ⟨reads, hreads, hrun⟩ := exec_broadcast fate ch s r w
  refine ⟨reads, hreads, ?_⟩
  cases hc : w.store.blobs.broadcastChecks r with
  | error e =>
    rw [hc] at hrun
    rw [hrun]
  | ok u =>
    rw [hc] at hrun
    obtain ⟨p, hsends, -⟩ := hrun
    simp [hsends.payload] at h

theorem exec_removeAll (s : Settings) (pre : String) (paths : List String) (w : Scene (Lossy ρ) τ)
    (hpresent : ∀ p ∈ paths, w.store.blobs.contains p) (hnodup : paths.Nodup) :
    ∃ (res : Except Fault Unit) (w' : Scene (Lossy ρ) τ) (done : List String),
      exec (Lossy.answer fate) ch (removeAll s pre paths) w = (.ok res, w') ∧
      w'.store.blobs = done.foldl Blobs.erase w.store.blobs ∧
      ∃ new, w'.log = w.log ++ new ∧ ∀ e ∈ new, e.1.isRemoval := by
  obtain ⟨w', done, rest, -, hblobs, hout, -, hlog⟩ :=
    run_removeEach fate ch s [] paths w hpresent hnodup
  have hrun : ∃ o, Program.run (Scene.answer (Lossy.answer fate) ch) (removeEach s [] paths) w =
      (.ok o, w') := by
    rcases hout with ⟨hrun, -⟩ | ⟨p, cause, -, hrun, -⟩ <;> exact ⟨_, hrun⟩
  obtain ⟨o, hrun⟩ := hrun
  have hexec : exec (Lossy.answer fate) ch (removeAll s pre paths) w =
      Program.run (Scene.answer (Lossy.answer fate) ch) ((removeEach s [] paths).bind _) w := rfl
  rw [Program.run_bind (Scene.answer (Lossy.answer fate) ch) (removeEach s [] paths), hrun] at hexec
  cases o <;> exact ⟨_, w', done, hexec, hblobs, hlog⟩

theorem exec_delete (s : Settings) (v : Version) (w : Scene (Lossy ρ) τ) :
    let w' := (exec (Lossy.answer fate) ch (delete s v) w).2
    (∃ done : List String, w'.store.blobs = done.foldl Blobs.erase w.store.blobs) ∧
      ∃ new, w'.log = w.log ++ new ∧ ∀ e ∈ new, e.1.isChain = false := by
  have hlist := exec_listFiles fate ch v w
  unfold delete
  cases hf : w.store.blobs.files v with
  | error e =>
    rw [hf] at hlist
    rw [exec_bind_error _ _ hlist]
    exact ⟨⟨[], rfl⟩, _, rfl, by simp⟩
  | ok files =>
    rw [hf] at hlist
    rw [exec_bind_ok _ _ hlist]
    dsimp only
    split
    · exact ⟨⟨[], rfl⟩, _, rfl, by simp⟩
    · obtain ⟨hnodup, hpresent⟩ := Blobs.paths_of_files hf
      obtain ⟨res, w', done, hrun, hblobs, new, hlog, hnew⟩ :=
        exec_removeAll fate ch s v.pre (files.map v.path)
          { w with log := w.log ++ [⟨.store (.listPrefix v.pre), .ok (w.store.blobs.under v.pre)⟩] }
          hpresent hnodup
      have hquiet : ∀ e ∈ (⟨.store (.listPrefix v.pre), .ok (w.store.blobs.under v.pre)⟩ : Answered) ::
          new, e.1.isChain = false := by
        intro e he
        rcases List.mem_cons.mp he with rfl | he
        · rfl
        · exact Request.isChain_of_isRemoval (hnew e he)
      rw [exec_bind, hrun]
      rcases res with e | u
      all_goals exact ⟨⟨done, hblobs⟩, _, by simp [hlog], hquiet⟩

theorem broadcast_removes_payload (s : Settings) (r : BroadcastRequest) (w : Scene (Lossy ρ) τ)
    (hsub : ((exec (Lossy.answer fate) ch (broadcast s r) w).2.log.drop w.log.length).findSome?
      Answered.submitted ≠ none)
    (hrem : reportsRemoval (exec (Lossy.answer fate) ch (broadcast s r) w).1 = true) :
    (exec (Lossy.answer fate) ch (broadcast s r) w).2.store.blobs.contains
      (r.version.path .unsigned) = false := by
  obtain ⟨reads, hreads, hcases⟩ := exec_broadcast_cases fate ch s r w
  have hquiet : reads.findSome? Answered.submitted = none :=
    List.findSome?_eq_none_iff.mpr fun e he => submitted_of_isRead (hreads e he)
  cases hc : w.store.blobs.broadcastChecks r with
  | error e =>
    rw [hc] at hcases
    rw [hcases] at hsub
    simp [hquiet] at hsub
  | ok u =>
    rw [hc] at hcases
    obtain ⟨p, hsends, ⟨e, w', -, hlog, hrun⟩ | ⟨signed, e, w', -, hlog, hrun⟩ |
      ⟨signed, result, w2, hstore, hlog, hrun⟩⟩ := hcases
    · rw [hrun] at hsub
      simp [hlog, hquiet] at hsub
    · rw [hrun] at hsub
      simp [hlog, hquiet] at hsub
    · obtain ⟨hnodup, hpresent⟩ := Blobs.paths_of_files hsends.files
      obtain ⟨res, w', done, rest, hrun', hsplit, hblobs, -, -, hout⟩ :=
        exec_settle fate ch s r p.files result w2 (by rwa [hstore]) hnodup
      rw [hrun, hrun'] at hrem ⊢
      have hhead : (p.files.map r.version.path).head? = some (r.version.path .unsigned) := by
        rw [List.head?_map, Blobs.head?_files hsends.files (by simp [hsends.payload])]
        rfl
      have hdone : done ≠ [] := by
        rcases hout with ⟨-, -, -, rfl⟩ | ⟨-, ⟨rfl, -⟩ | ⟨q, cause, -, rfl, -⟩⟩
        · simp [reportsRemoval] at hrem
        · rintro rfl
          simp [← hsplit] at hhead
        · simpa [reportsRemoval] using hrem
      have hfirst : done.head? = some (r.version.path .unsigned) := by
        rw [← hhead, ← hsplit, List.head?_append_of_ne_nil _ hdone]
      rw [hblobs]
      exact Blobs.contains_foldl_erase_eq_false (.inl (List.mem_of_mem_head? hfirst))

end Op

namespace Touch

variable {ρ τ : Type} (fate : StoreCall → ρ → Fate × ρ) (ch : ChainAnswer τ) (s : Settings)
  (v : Version)

theorem step_quiet (t : Touch) (w : Scene (Lossy ρ) τ)
    (h : w.store.blobs.contains (v.path .unsigned) = false) :
    (step fate ch s v t w).store.blobs.contains (v.path .unsigned) = false ∧
      ∃ new, (step fate ch s v t w).log = w.log ++ new ∧ ∀ e ∈ new, e.1.isChain = false := by
  have hnone : w.store.blobs.get? (v.path .unsigned) = none := by
    simpa [Blobs.contains_eq_isSome] using h
  cases t with
  | sign key signer address =>
    obtain ⟨reads, hreads, hw⟩ := Op.exec_sign_of_absent fate ch ⟨v, key, signer, address⟩ w hnone
    rw [step, hw]
    exact ⟨h, reads, rfl, fun e he => Request.isChain_of_isRead (hreads e he)⟩
  | broadcast key node threshold cleanup =>
    obtain ⟨reads, hreads, hw⟩ :=
      Op.exec_broadcast_of_absent fate ch s ⟨v, key, node, threshold, cleanup⟩ w hnone
    rw [step, hw]
    exact ⟨h, reads, rfl, fun e he => Request.isChain_of_isRead (hreads e he)⟩
  | delete =>
    obtain ⟨⟨done, hblobs⟩, hlog⟩ := Op.exec_delete fate ch s v w
    rw [step]
    exact ⟨by rw [hblobs]; exact Blobs.contains_foldl_erase_eq_false (.inr h), hlog⟩

theorem run_quiet (ts : List Touch) (w : Scene (Lossy ρ) τ)
    (h : w.store.blobs.contains (v.path .unsigned) = false) :
    (run fate ch s v ts w).store.blobs.contains (v.path .unsigned) = false ∧
      ∃ new, (run fate ch s v ts w).log = w.log ++ new ∧ ∀ e ∈ new, e.1.isChain = false := by
  induction ts generalizing w with
  | nil => exact ⟨h, [], by simp [run], by simp⟩
  | cons t ts ih =>
    obtain ⟨h1, new1, hlog1, hnew1⟩ := step_quiet fate ch s v t w h
    obtain ⟨h2, new2, hlog2, hnew2⟩ := ih (step fate ch s v t w) h1
    refine ⟨h2, new1 ++ new2, by rw [run, hlog2, hlog1, List.append_assoc], ?_⟩
    intro e he
    rcases List.mem_append.mp he with he | he
    · exact hnew1 e he
    · exact hnew2 e he

end Touch

namespace Op

variable {ρ τ : Type} (fate : StoreCall → ρ → Fate × ρ) (ch : ChainAnswer τ)

/-- Once a broadcast of a version has had its submission return a result, and reports removing
files of the version, no later signing, broadcasting or deleting of the version calls the chain:
the payload is gone, and every later operation keeps it gone. -/
theorem broadcast_not_repeated_after_cleanup (s : Settings) (r : BroadcastRequest)
    (later : List Touch) (w : Scene (Lossy ρ) τ) :
    let first := exec (Lossy.answer fate) ch (broadcast s r) w
    (first.2.log.drop w.log.length).findSome? Answered.submitted ≠ none →
    reportsRemoval first.1 = true →
    ∀ e ∈ (Touch.run fate ch s r.version later first.2).log.drop first.2.log.length,
      e.1.isChain = false := by
  intro first hsub hrem e he
  obtain ⟨-, new, hlog, hnew⟩ := Touch.run_quiet fate ch s r.version later first.2
    (broadcast_removes_payload fate ch s r w hsub hrem)
  rw [hlog, List.drop_left] at he
  exact hnew e he

end Op

namespace Sample

/-- A version of queue `c/k` with its payload, its metadata and the signatures of `alice` and
`bob`. -/
def version : Version := ⟨⟨"c", "k", by decide, by decide⟩, 0⟩

def store : Blobs :=
  (((Blobs.empty.put (version.path .unsigned) "\x7b\x7d".toUTF8).put (version.path .signdata)
    "\x7b\"account\":5,\"sequence\":12,\"chain-id\":\"c-1\"\x7d".toUTF8).put
    (version.path (.signature "alice")) "sa".toUTF8).put (version.path (.signature "bob")) "sb".toUTF8

def world : Scene (Lossy Unit) Unit := ⟨⟨(), store⟩, (), []⟩

def chain : ChainAnswer Unit := fun c _ => (match c with
  | .account _ _ => .error (.config "no account")
  | .sign _ _ _ _ => .ok "sig".toUTF8
  | .aggregate _ _ _ _ _ => .ok "signed".toUTF8
  | .submit _ _ => .ok ⟨0, "ABCDEF"⟩, ())

def deletesFail : StoreCall → Unit → Fate × Unit
  | .delete p, _ => (.fails (.backend ("deleting " ++ p) (.other "access denied")), ())
  | _, _ => (.done, ())

def settings : Settings := ⟨⟨40000000⟩, ⟨5000000⟩⟩

/-- A broadcast of the version that needs both signatures and always removes the version. -/
def request : BroadcastRequest := ⟨version, "val-multi", some "node", 2, .always⟩

end Sample

namespace Op

/-- On a reliable store a broadcast removes its version, and a later broadcast, signature and
deletion of it call no chain service. -/
theorem broadcast_not_repeated_after_cleanup_on_reliable_store :
    let first := exec (Lossy.answer Lossy.reliable) Sample.chain
      (broadcast Sample.settings Sample.request) Sample.world
    (first.2.log.drop Sample.world.log.length).findSome? Answered.submitted ≠ none ∧
      reportsRemoval first.1 = true ∧
      ∀ e ∈ (Touch.run Lossy.reliable Sample.chain Sample.settings Sample.version
          [.broadcast "val-multi" (some "node") 2 .always, .sign "ledger" "carol" "multi", .delete]
          first.2).log.drop first.2.log.length,
        e.1.isChain = false :=
  ⟨by decide +kernel, by decide +kernel,
    broadcast_not_repeated_after_cleanup Lossy.reliable Sample.chain Sample.settings Sample.request
      _ Sample.world (by decide +kernel) (by decide +kernel)⟩

/-- When the first removal of its cleanup fails, a broadcast that always removes its version
leaves the version as it was, and broadcasting it again submits the transaction a second time. -/
theorem broadcast_repeated_after_failed_cleanup :
    let first := exec (Lossy.answer Sample.deletesFail) Sample.chain
      (broadcast Sample.settings Sample.request) Sample.world
    let second := Touch.run Sample.deletesFail Sample.chain Sample.settings Sample.version
      [.broadcast "val-multi" (some "node") 2 .always] first.2
    (first.2.log.drop Sample.world.log.length).findSome? Answered.submitted ≠ none ∧
      (second.log.drop first.2.log.length).findSome? Answered.submitted ≠ none := by
  decide +kernel

end Op

end Quorum
