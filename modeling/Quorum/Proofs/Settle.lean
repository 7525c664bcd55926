import Quorum.Proofs.Broadcast

/-!
# Submitting and settling a broadcast

Once its checks pass, a broadcast asks the chain to combine the signatures, submits what the chain
combined, and settles the version by the policy: it keeps a failed transaction for a retry, or
removes the listed files in order until a removal fails (`Op.exec_broadcast_cases`,
`Op.exec_settle`). From these, the chain calls a broadcast makes
(`Op.broadcast_calls_chain_after_checks`) and what it does to the store
(`Op.broadcast_removes_listed_prefix`).
-/

namespace Quorum

theorem Blobs.paths_of_files {b : Blobs} {v : Version} {files : List Artifact}
    (h : b.files v = .ok files) :
    (files.map v.path).Nodup ∧ ∀ p ∈ files.map v.path, b.contains p := by
  obtain ⟨hasc, hmem⟩ := collect_eq_ok v.artifactOf (b.under v.pre) h List.Pairwise.nil
  have hkey : ∀ a ∈ files, v.fileOf (v.path a) = .ok (some a) ∧ v.path a ∈ b.under v.pre := by
    intro a ha
    obtain ⟨k, hk, hart⟩ := ((hmem a).mp ha).resolve_left List.not_mem_nil
    have hfile : v.fileOf k = .ok (some a) := by
      unfold Version.artifactOf at hart
      split at hart <;> simp_all
    rw [Version.path_of_fileOf hfile]
    exact ⟨hfile, hk⟩
  refine ⟨List.Nodup.map_on (fun a ha a' ha' heq => ?_) (hasc.imp fun {a a'} hlt heq => ?_),
    fun p hp => ?_⟩
  · -- one key reads as one artifact
    have h1 := (hkey a ha).1
    rw [heq, (hkey a' ha').1] at h1
    cases h1
    rfl
  · subst heq
    simp [Std.ReflCmp.compare_self] at hlt
  · obtain ⟨a, ha, rfl⟩ := List.mem_map.mp hp
    rw [Blobs.contains_eq_isSome]
    exact Blobs.mem_keys.mp (Blobs.mem_under.mp (hkey a ha).2).1

/-- The call that combines the signatures a broadcast prepared, with the multisig key `key`. -/
def Prepared.aggregation (p : Prepared) (key : String) : ChainCall :=
  .aggregate p.payload key p.signatures p.metadata (some p.node)

/-- The result a logged request reports from the chain, if it is a submission that returned one. -/
def Answered.submitted : Answered → Option Outcome
  | ⟨.chain (.submit _ _), .ok result⟩ => some result
  | _ => none

-- The replies below are typed as the calls answer them, which is how they stand in a log.
@[simp] theorem Answered.submitted_aggregation (p : Prepared) (key : String)
    (reply : Except Fault (p.aggregation key).Reply) :
    Answered.submitted ⟨.chain (p.aggregation key), reply⟩ = none := by
  cases reply <;> rfl

@[simp] theorem Answered.submitted_submit_ok (signed : ByteArray) (node : String)
    (result : Outcome) :
    Answered.submitted
      ⟨.chain (.submit signed node), (.ok result : Except Fault (ChainCall.submit signed node).Reply)⟩ =
      some result :=
  rfl

@[simp] theorem Answered.submitted_submit_error (signed : ByteArray) (node : String) (e : Fault) :
    Answered.submitted
      ⟨.chain (.submit signed node), (.error e : Except Fault (ChainCall.submit signed node).Reply)⟩ =
      none :=
  rfl

/-- The paths of the files of a version, in the order listing them gives, or none when the
listing fails. -/
def Blobs.listedPaths (b : Blobs) (v : Version) : List String :=
  match b.files v with
  | .ok files => files.map v.path
  | .error _ => []

namespace Op

variable {ρ τ : Type} (fate : StoreCall → ρ → Fate × ρ) (ch : ChainAnswer τ)

theorem exec_settle (s : Settings) (r : BroadcastRequest) (files : List Artifact)
    (result : Outcome) (w : Scene (Lossy ρ) τ)
    (hpresent : ∀ p ∈ files.map r.version.path, w.store.blobs.contains p)
    (hnodup : (files.map r.version.path).Nodup) :
    ∃ res w' done rest, exec (Lossy.answer fate) ch (settle s r files result) w = (res, w') ∧
      done ++ rest = files.map r.version.path ∧
      w'.store.blobs = done.foldl Blobs.erase w.store.blobs ∧ w'.chain = w.chain ∧
      (∃ new, w'.log = w.log ++ new ∧ ∀ e ∈ new, e.1.isRemoval) ∧
      (r.cleanup = .onSuccess ∧ result.isSuccess = false ∧ done = [] ∧
          res = .ok (.ok ⟨result.code, result.txhash, false⟩) ∨
        (r.cleanup = .always ∨ result.isSuccess = true) ∧
          (rest = [] ∧ res = .ok (.ok ⟨result.code, result.txhash, true⟩) ∨
            ∃ p cause, rest.head? = some p ∧
              res = .ok (.error (.cleanupAfterBroadcast result.code result.txhash r.version.pre
                done rest cause)) ∧
              FailedRemoval s.deleteTimeout p cause w'.log)) := by
  unfold settle
  dsimp only
  cases hc : r.cleanup
  rotate_left
  cases hs : result.isSuccess
  case false =>
    refine ⟨_, w, [], files.map r.version.path, ?_, rfl, rfl, rfl, ⟨[], by simp, by simp⟩,
      Or.inl ⟨rfl, rfl, rfl, rfl⟩⟩
    simp only [Bool.false_eq_true, if_false]
    rfl
  all_goals
    obtain ⟨w', done, rest, hsplit, hblobs, hout, hchain, new, hlog, hnew⟩ :=
      run_removeEach fate ch s [] (files.map r.version.path) w hpresent hnodup
    simp only [if_true]
    rw [exec_lift_bind]
    rcases hout with ⟨hrun, rfl⟩ | ⟨p, cause, hhead, hrun, hfail⟩
    · rw [hrun]
      exact ⟨_, w', done, [], rfl, hsplit, hblobs, hchain, ⟨new, hlog, hnew⟩,
        Or.inr ⟨by simp, Or.inl ⟨rfl, rfl⟩⟩⟩
    · rw [hrun]
      exact ⟨_, w', done, rest, rfl, hsplit, hblobs, hchain, ⟨new, hlog, hnew⟩,
        Or.inr ⟨by simp, Or.inr ⟨p, cause, hhead, by simp, hfail⟩⟩⟩

variable {σ : Type} (st : StoreAnswer σ) {s : Settings} {r : BroadcastRequest} {p : Prepared}
  {w : Scene σ τ}

theorem exec_submitPrepared_of_aggregate_error {e : Fault}
    (h : (ch (p.aggregation r.multisigKey) w.chain).1 = .error e) :
    exec st ch (submitPrepared s r p) w =
      (.ok (.error e),
        { w with
          chain := (ch (p.aggregation r.multisigKey) w.chain).2
          log := w.log ++ [⟨.chain (p.aggregation r.multisigKey), .error e⟩] }) :=
  exec_chain_bind_error st ch h

theorem exec_submitPrepared_of_submit_error {signed : ByteArray} {e : Fault}
    (ha : (ch (p.aggregation r.multisigKey) w.chain).1 = .ok signed)
    (hs : (ch (.submit signed p.node) (ch (p.aggregation r.multisigKey) w.chain).2).1 = .error e) :
    exec st ch (submitPrepared s r p) w =
      (.ok (.error e),
        { w with
          chain := (ch (.submit signed p.node) (ch (p.aggregation r.multisigKey) w.chain).2).2
          log := w.log ++ [⟨.chain (p.aggregation r.multisigKey), .ok signed⟩,
            ⟨.chain (.submit signed p.node), .error e⟩] }) := by
  unfold Prepared.aggregation at ha hs ⊢
  rw [submitPrepared, exec_chain_bind_ok st ch ha, exec_chain_bind_error st ch hs]
  simp

theorem exec_submitPrepared_of_submitted {signed : ByteArray} {result : Outcome}
    (ha : (ch (p.aggregation r.multisigKey) w.chain).1 = .ok signed)
    (hs : (ch (.submit signed p.node) (ch (p.aggregation r.multisigKey) w.chain).2).1 =
      .ok result) :
    ∃ w' : Scene σ τ, w'.store = w.store ∧
      w'.log = w.log ++ [⟨.chain (p.aggregation r.multisigKey), .ok signed⟩,
        ⟨.chain (.submit signed p.node), .ok result⟩] ∧
      exec st ch (submitPrepared s r p) w = exec st ch (settle s r p.files result) w' := by
  refine ⟨{ w with
    chain := (ch (.submit signed p.node) (ch (p.aggregation r.multisigKey) w.chain).2).2
    log := _ }, rfl, rfl, ?_⟩
  unfold Prepared.aggregation at ha hs ⊢
  rw [submitPrepared, exec_chain_bind_ok st ch ha, exec_chain_bind_ok st ch hs]
  simp

theorem exec_broadcast (s : Settings) (r : BroadcastRequest) (w : Scene (Lossy ρ) τ) :
    ∃ reads : List Answered, (∀ e ∈ reads, e.1.isRead) ∧
      match w.store.blobs.broadcastChecks r with
      | .error e => exec (Lossy.answer fate) ch (broadcast s r) w =
          (.ok (.error e), { w with log := w.log ++ reads })
      | .ok () => ∃ p, w.store.blobs.Sends r p ∧
          exec (Lossy.answer fate) ch (broadcast s r) w =
            exec (Lossy.answer fate) ch (submitPrepared s r p) { w with log := w.log ++ reads } := by
  obtain ⟨reads, hreads, hprep⟩ := readsOnly_prepareBroadcast r _ _ fate ch w
  refine ⟨reads, hreads, ?_⟩
  have hchecks := Blobs.prepareBroadcast_of_checks w.store.blobs r
  unfold broadcast
  cases hc : w.store.blobs.broadcastChecks r with
  | error e =>
    rw [hc] at hchecks
    dsimp only at hchecks hprep ⊢
    rw [hchecks] at hprep
    exact exec_bind_error _ _ hprep
  | ok u =>
    rw [hc] at hchecks
    dsimp only at hchecks hprep ⊢
    obtain ⟨p, hsends, hp⟩ := hchecks
    rw [hp] at hprep
    exact ⟨p, hsends, exec_bind_ok _ _ hprep⟩

theorem exec_broadcast_cases (s : Settings) (r : BroadcastRequest) (w : Scene (Lossy ρ) τ) :
    ∃ reads : List Answered, (∀ e ∈ reads, e.1.isRead) ∧
      match w.store.blobs.broadcastChecks r with
      | .error e => exec (Lossy.answer fate) ch (broadcast s r) w =
          (.ok (.error e), { w with log := w.log ++ reads })
      | .ok () => ∃ p, w.store.blobs.Sends r p ∧
        ((∃ e w', w'.store = w.store ∧
            w'.log = w.log ++ reads ++ [⟨.chain (p.aggregation r.multisigKey), .error e⟩] ∧
            exec (Lossy.answer fate) ch (broadcast s r) w = (.ok (.error e), w')) ∨
          (∃ (signed : ByteArray) (e : Fault) (w' : Scene (Lossy ρ) τ), w'.store = w.store ∧
            w'.log = w.log ++ reads ++ [⟨.chain (p.aggregation r.multisigKey), .ok signed⟩,
              ⟨.chain (.submit signed p.node), .error e⟩] ∧
            exec (Lossy.answer fate) ch (broadcast s r) w = (.ok (.error e), w')) ∨
          ∃ (signed : ByteArray) (result : Outcome) (w' : Scene (Lossy ρ) τ), w'.store = w.store ∧
            w'.log = w.log ++ reads ++ [⟨.chain (p.aggregation r.multisigKey), .ok signed⟩,
              ⟨.chain (.submit signed p.node), .ok result⟩] ∧
            exec (Lossy.answer fate) ch (broadcast s r) w =
              exec (Lossy.answer fate) ch (settle s r p.files result) w') := by
  obtain ⟨reads, hreads, hrun⟩ := exec_broadcast fate ch s r w
  refine ⟨reads, hreads, ?_⟩
  cases hc : w.store.blobs.broadcastChecks r with
  | error e =>
    rw [hc] at hrun
    exact hrun
  | ok u =>
    rw [hc] at hrun
    obtain ⟨p, hsends, hrun⟩ := hrun
    refine ⟨p, hsends, ?_⟩
    rw [hrun]
    let w1 : Scene (Lossy ρ) τ := { w with log := w.log ++ reads }
    cases ha : (ch (p.aggregation r.multisigKey) w.chain).1 with
    | error e =>
      refine .inl ⟨e, _, ?_, ?_, exec_submitPrepared_of_aggregate_error (w := w1) _ _ ha⟩ <;> rfl
    | ok signed =>
      cases hs : (ch (.submit signed p.node) (ch (p.aggregation r.multisigKey) w.chain).2).1 with
      | error e =>
        refine .inr (.inl ⟨signed, e, _, ?_, ?_,
          exec_submitPrepared_of_submit_error (w := w1) _ _ ha hs⟩) <;> rfl
      | ok result =>
        obtain ⟨w2, hstore, hlog, hrun2⟩ := exec_submitPrepared_of_submitted (w := w1) _ _ ha hs
        exact .inr (.inr ⟨signed, result, w2, hstore, hlog, hrun2⟩)

theorem filter_isChain_of_isRead {l : List Answered} (h : ∀ e ∈ l, e.1.isRead) :
    l.filter (·.1.isChain) = [] :=
  List.filter_eq_nil_iff.mpr fun e he => by simp [Request.isChain_of_isRead (h e he)]

theorem filter_isChain_of_isRemoval {l : List Answered} (h : ∀ e ∈ l, e.1.isRemoval) :
    l.filter (·.1.isChain) = [] :=
  List.filter_eq_nil_iff.mpr fun e he => by simp [Request.isChain_of_isRemoval (h e he)]

/-- A broadcast calls the chain only once its checks pass, and then sends what it read. When a
check fails, the broadcast fails with the first failing check and calls nothing. Otherwise it
combines, with the request's multisig key and node, the stored payload, the decoded metadata and
every signature file once, ascending by signer; it submits only what the chain combined, to the
same node; and its cleanup calls nothing. -/
theorem broadcast_calls_chain_after_checks (s : Settings) (r : BroadcastRequest)
    (w : Scene (Lossy ρ) τ) :
    let run := exec (Lossy.answer fate) ch (broadcast s r) w
    let sent := (run.2.log.drop w.log.length).filter (·.1.isChain)
    match w.store.blobs.broadcastChecks r with
    | .error e => run.1 = .ok (.error e) ∧ sent = []
    | .ok () => ∃ p, w.store.blobs.Sends r p ∧
        let agg : ChainCall :=
          .aggregate p.payload r.multisigKey p.signatures p.metadata (some p.node)
        (∃ e, sent = [⟨.chain agg, .error e⟩]) ∨
          ∃ (signed : ByteArray) (reply : Except Fault Outcome),
            sent = [⟨.chain agg, .ok signed⟩, ⟨.chain (.submit signed p.node), reply⟩] := by
  obtain ⟨reads, hreads, hcases⟩ := exec_broadcast_cases fate ch s r w
  have hquiet := filter_isChain_of_isRead hreads
  dsimp only
  cases hc : w.store.blobs.broadcastChecks r with
  | error e =>
    rw [hc] at hcases
    simp [hcases, hquiet]
  | ok u =>
    rw [hc] at hcases
    obtain ⟨p, hsends, ⟨e, w', -, hlog, hrun⟩ | ⟨signed, e, w', -, hlog, hrun⟩ |
      ⟨signed, result, w2, hstore, hlog, hrun⟩⟩ := hcases
    · -- the chain fails to combine: nothing is submitted
      exact ⟨p, hsends, .inl ⟨e, by simp [hrun, hlog, hquiet, Prepared.aggregation]⟩⟩
    · -- the submission fails; its reply is logged at the type the call answers, not at
      -- the type the statement names, hence the last rfl
      refine ⟨p, hsends, .inr ⟨signed, .error e, ?_⟩⟩
      simp [hrun, hlog, hquiet, Prepared.aggregation, List.filter_cons]
      rfl
    · -- the cleanup after the submission only removes objects
      obtain ⟨hnodup, hpresent⟩ := Blobs.paths_of_files hsends.files
      obtain ⟨res, w', -, -, hrun', -, -, -, ⟨new, hlog', hnew⟩, -⟩ :=
        exec_settle fate ch s r p.files result w2 (by rwa [hstore]) hnodup
      refine ⟨p, hsends, .inr ⟨signed, .ok result, ?_⟩⟩
      simp [hrun, hrun', hlog', hlog, hquiet, filter_isChain_of_isRemoval hnew,
        Prepared.aggregation, List.filter_cons]
      rfl

theorem submitted_of_isRead {e : Answered} (h : e.1.isRead) : e.submitted = none := by
  rcases e with ⟨_ | _, _⟩
  · rfl
  · simp [Request.isRead] at h

theorem submitted_of_isRemoval {e : Answered} (h : e.1.isRemoval) : e.submitted = none := by
  rcases e with ⟨_ | _, _⟩
  · rfl
  · simp [Request.isRemoval] at h

/-- A broadcast changes the store only by removing a first part of the paths of the files it
listed, in listing order, and writes nothing. Nothing is removed when it fails before a
submission returns a result, or when the policy keeps a failed transaction, and the broadcast
then says so. Otherwise it reports the submission's result: with every path removed, or, when a
removal fails, with the paths removed and the remaining ones, the first of which is the path whose
delete or wait failed. -/
theorem broadcast_removes_listed_prefix (s : Settings) (r : BroadcastRequest)
    (w : Scene (Lossy ρ) τ) :
    let b := w.store.blobs
    let run := exec (Lossy.answer fate) ch (broadcast s r) w
    let new := run.2.log.drop w.log.length
    ∃ removed rest, removed ++ rest = b.listedPaths r.version ∧
      run.2.store.blobs = removed.foldl Blobs.erase b ∧ (∀ e ∈ new, e.1.isPut = false) ∧
      match new.findSome? Answered.submitted with
      | none => removed = [] ∧ ∃ e, run.1 = .ok (.error e)
      | some result =>
        if r.cleanup = .onSuccess ∧ result.isSuccess = false then
          removed = [] ∧ run.1 = .ok (.ok ⟨result.code, result.txhash, false⟩)
        else
          rest = [] ∧ run.1 = .ok (.ok ⟨result.code, result.txhash, true⟩) ∨
            ∃ p cause, rest.head? = some p ∧
              run.1 = .ok (.error (.cleanupAfterBroadcast result.code result.txhash r.version.pre
                removed rest cause)) ∧
              FailedRemoval s.deleteTimeout p cause run.2.log := by
  obtain ⟨reads, hreads, hcases⟩ := exec_broadcast_cases fate ch s r w
  have hquiet : reads.findSome? Answered.submitted = none :=
    List.findSome?_eq_none_iff.mpr fun e he => submitted_of_isRead (hreads e he)
  have hnoput : ∀ e ∈ reads, e.1.isPut = false := fun e he => Request.isPut_of_isRead (hreads e he)
  dsimp only
  cases hc : w.store.blobs.broadcastChecks r with
  | error e =>
    rw [hc] at hcases
    rw [hcases]
    exact ⟨[], _, rfl, rfl, by simpa using hnoput, by simp [hquiet]⟩
  | ok u =>
    rw [hc] at hcases
    obtain ⟨p, hsends, hcases⟩ := hcases
    have hlisted : w.store.blobs.listedPaths r.version = p.files.map r.version.path := by
      simp [Blobs.listedPaths, hsends.files]
    rw [hlisted]
    rcases hcases with ⟨e, w', hstore, hlog, hrun⟩ | ⟨signed, e, w', hstore, hlog, hrun⟩ |
      ⟨signed, result, w2, hstore, hlog, hrun⟩
    · -- the chain fails to combine
      rw [hrun]
      refine ⟨[], _, rfl, by rw [hstore]; rfl, ?_, by simp [hlog, hquiet]⟩
      intro e he
      simp only [hlog, List.append_assoc, List.drop_left, List.mem_append,
        List.mem_singleton] at he
      rcases he with he | rfl
      · exact hnoput e he
      · rfl
    · -- the submission fails
      rw [hrun]
      refine ⟨[], _, rfl, by rw [hstore]; rfl, ?_, by simp [hlog, hquiet]⟩
      intro e he
      simp only [hlog, List.append_assoc, List.drop_left, List.mem_append, List.mem_cons,
        List.not_mem_nil, or_false] at he
      rcases he with he | rfl | rfl
      · exact hnoput e he
      · rfl
      · rfl
    · -- the submission returns a result, and the version is settled
      obtain ⟨hnodup, hpresent⟩ := Blobs.paths_of_files hsends.files
      obtain ⟨res, w', done, rest, hrun', hsplit, hblobs, -, ⟨new, hlog', hnew⟩, hout⟩ :=
        exec_settle fate ch s r p.files result w2 (by rwa [hstore]) hnodup
      rw [hrun, hrun']
      refine ⟨done, rest, hsplit, by rw [hblobs, hstore], ?_, ?_⟩
      · intro e he
        simp only [hlog', hlog, List.append_assoc, List.drop_left, List.mem_append,
          List.mem_cons, List.not_mem_nil, or_false] at he
        rcases he with he | (rfl | rfl) | he
        · exact hnoput e he
        · rfl
        · rfl
        · exact Request.isPut_of_isRemoval (hnew e he)
      · have hfound : (w'.log.drop w.log.length).findSome? Answered.submitted = some result := by
          simp [hlog', hlog, hquiet, List.findSome?_cons]
        dsimp only
        rw [hfound]
        dsimp only
        rcases hout with ⟨hcl, hsucc, rfl, hres⟩ | ⟨hrem, hout⟩
        · rw [if_pos ⟨hcl, hsucc⟩]
          exact ⟨rfl, hres⟩
        · rw [if_neg fun ⟨hcl, hsucc⟩ => by rcases hrem with h | h <;> simp_all]
          exact hout

end Op

end Quorum
