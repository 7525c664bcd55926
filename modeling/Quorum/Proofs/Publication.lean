import Quorum.Proofs.Signing

/-!
# How a publish decides, writes and fails

A publish runs in three phases. It finds the account number and sequence to sign for: both given,
or the missing ones asked of the node in one query, which needs a node. It lists the versions of
its queue and chooses the index of the new version by its policy. Only then does it write: a
forced publish removes the files of the version first, and every publish writes the payload and
the metadata.

Everything a publish can refuse, it refuses before it writes, with the store as it was. The index
of a queued publish is one past the highest listed version as a word, so when the highest listed
version is the largest word the addition overflows and the run stops on that defect; no other
step of a publish can stop on a defect, since past the choice of the index it only asks the store
(`Program.StoreOnly`).
-/

namespace Quorum

namespace Program

/-- A program that asks only the store and ends with a value: it calls no chain and never stops on
a defect. -/
inductive StoreOnly {α : Type} : Program Coordination α → Prop
  | pure (a : α) : StoreOnly (.pure a)
  | store (c : StoreCall) {next : Request.Reply (.store c) → Program Coordination α} :
      (∀ x, StoreOnly (next x)) → StoreOnly (.call (.store c) next)

namespace StoreOnly

variable {α β σ τ : Type}

theorem bind {p : Program Coordination α} {f : α → Program Coordination β} (hp : p.StoreOnly)
    (hf : ∀ a, (f a).StoreOnly) : (p.bind f).StoreOnly := by
  induction hp with
  | pure a => exact hf a
  | store c _ ih => exact .store c ih

theorem run {p : Program Coordination α} (hp : p.StoreOnly) (st : StoreAnswer σ)
    (ch : ChainAnswer τ) (w : Scene σ τ) :
    ∃ a w', Program.run (Scene.answer st ch) p w = (.ok a, w') ∧ w'.chain = w.chain ∧
      ∃ new : List Answered, w'.log = w.log ++ new ∧ ∀ e ∈ new, e.1.isChain = false := by
  induction hp generalizing w with
  | pure a => exact ⟨a, w, rfl, rfl, [], by simp, by simp⟩
  | store c _ ih =>
    obtain ⟨a, w', hrun, hchain, new, hlog, hnew⟩ := ih (st c w.store).1
      { w with store := (st c w.store).2, log := w.log ++ [⟨.store c, (st c w.store).1⟩] }
    refine ⟨a, w', hrun, hchain, ⟨.store c, (st c w.store).1⟩ :: new, by simp [hlog], ?_⟩
    intro e he
    rcases List.mem_cons.mp he with rfl | he
    · rfl
    · exact hnew e he

end StoreOnly

theorem storeOnly_waitWith (p : String) (timeout : Duration) (n : Nat) :
    (waitWith Op.contains p timeout n).StoreOnly := by
  induction n with
  | zero => exact .pure _
  | succ n ih =>
    refine .store _ fun x => ?_
    rcases x with e | _ | _
    · exact .pure _
    · exact .pure _
    · exact ih

end Program

namespace Op

variable {α β γ : Type}

def StoreOnly (op : Op α) : Prop :=
  Program.StoreOnly op.run

namespace StoreOnly

theorem bind {x : Op α} {f : α → Op β} (hx : x.StoreOnly) (hf : ∀ a, (f a).StoreOnly) :
    (x >>= f).StoreOnly :=
  Program.StoreOnly.bind hx fun
    | .ok a => hf a
    | .error _ => .pure _

theorem foldlM {body : β → γ → Op β} (h : ∀ acc x, (body acc x).StoreOnly) (l : List γ)
    (init : β) : (l.foldlM body init).StoreOnly := by
  induction l generalizing init with
  | nil => exact .pure _
  | cons x l ih => exact (h init x).bind ih

end StoreOnly

theorem storeOnly_store (c : StoreCall) : (store c).StoreOnly :=
  .store c fun _ => .pure _

theorem storeOnly_listFiles (v : Version) : (listFiles v).StoreOnly :=
  (storeOnly_store _).bind fun _ => StoreOnly.foldlM (fun _ _ => by split <;> exact .pure _) _ _

theorem storeOnly_removeOne (s : Settings) (p : String) : (removeOne s p).StoreOnly :=
  (storeOnly_store _).bind fun _ =>
    Program.StoreOnly.bind (Program.storeOnly_waitWith _ _ _) fun _ => .pure _

theorem storeOnly_removeEach (s : Settings) (removed paths : List String) :
    (removeEach s removed paths).StoreOnly := by
  induction paths generalizing removed with
  | nil => exact .pure _
  | cons p ps ih =>
    exact Program.StoreOnly.bind (storeOnly_removeOne s p) fun
      | .error _ => .pure _
      | .ok () => ih _

theorem storeOnly_removeAll (s : Settings) (pre : String) (paths : List String) :
    (removeAll s pre paths).StoreOnly :=
  Program.StoreOnly.bind (storeOnly_removeEach s [] paths) fun
    | none => .pure _
    | some _ => .pure _

theorem StoreOnly.exec {σ τ : Type} {op : Op α} (h : op.StoreOnly) (st : StoreAnswer σ)
    (ch : ChainAnswer τ) (w : Scene σ τ) :
    ∃ x w', Op.exec st ch op w = (.ok x, w') ∧ w'.chain = w.chain ∧
      ∃ new : List Answered, w'.log = w.log ++ new ∧ ∀ e ∈ new, e.1.isChain = false :=
  Program.StoreOnly.run h st ch w

/-- The operation calls no chain on a memory store, whatever becomes of its writes: every request
it logs is a store call. -/
def Quiet (op : Op α) : Prop :=
  ∀ (ρ τ : Type) (fate : StoreCall → ρ → Fate × ρ) (ch : ChainAnswer τ) (w : Scene (Lossy ρ) τ),
    ∃ new : List Answered, (exec (Lossy.answer fate) ch op w).2.log = w.log ++ new ∧
      ∀ e ∈ new, e.1.isChain = false

theorem Quiet.bind {x : Op α} {f : α → Op β} (hx : x.Quiet) (hf : ∀ a, (f a).Quiet) :
    (x >>= f).Quiet := by
  intro ρ τ fate ch w
  obtain ⟨new, hlog, hnew⟩ := hx ρ τ fate ch w
  rw [exec_bind]
  rcases hr : exec (Lossy.answer fate) ch x w with ⟨d | e | a, w'⟩ <;> rw [hr] at hlog
  · exact ⟨new, hlog, hnew⟩
  · exact ⟨new, hlog, hnew⟩
  · obtain ⟨new', hlog', hnew'⟩ := hf a ρ τ fate ch w'
    refine ⟨new ++ new', by rw [hlog', hlog, List.append_assoc], fun e he => ?_⟩
    rcases List.mem_append.mp he with he | he
    · exact hnew e he
    · exact hnew' e he

theorem StoreOnly.quiet {op : Op α} (h : op.StoreOnly) : op.Quiet := fun _ _ fate ch w => by
  obtain ⟨x, w', hrun, -, new, hlog, hnew⟩ := h.exec (Lossy.answer fate) ch w
  exact ⟨new, by rw [hrun]; exact hlog, hnew⟩

theorem ReadsOnly.quiet {op : Op α} {g : Blobs → Except Fault α} (h : ReadsOnly op g) :
    op.Quiet := fun ρ τ fate ch w => by
  obtain ⟨reads, hreads, hrun⟩ := h ρ τ fate ch w
  exact ⟨reads, by rw [hrun], fun e he => Request.isChain_of_isRead (hreads e he)⟩

theorem chainCalls_of_log {σ τ : Type} {w w' : Scene σ τ} {new : List Answered}
    (hlog : w'.log = w.log ++ new) :
    (w'.log.drop w.log.length).filter (·.1.isChain) = new.filter (·.1.isChain) := by
  rw [hlog, List.drop_left]

theorem exec_abort {σ τ : Type} (st : StoreAnswer σ) (ch : ChainAnswer τ) (m : String)
    (w : Scene σ τ) : exec st ch (abort m : Op α) w = (.error ⟨m⟩, w) :=
  rfl

theorem exec_bind_defect {σ τ : Type} {st : StoreAnswer σ} {ch : ChainAnswer τ} {x : Op α}
    {f : α → Op β} {w w' : Scene σ τ} {d : Defect} (h : exec st ch x w = (.error d, w')) :
    exec st ch (x >>= f) w = (.error d, w') := by
  rw [exec_bind, h]

/-- A publish once it has its numbers and the index of the new version: a forced publish removes
the files of the version first, then the payload and the metadata are written. -/
def createVersion (s : Settings) (r : PublishRequest) (account sequence index : UInt64) :
    Op Published := do
  let sequence := if r.sequence.isSome then sequence else saturatingAdd sequence index
  let version := r.queue.version index
  if r.policy = .force then
    let stale ← listFiles version
    removeAll s version.pre (stale.map version.path)
  let metadata : Metadata := ⟨account, sequence, r.chainId, r.description⟩
  store (.put (version.path .unsigned) r.payload)
  store (.put (version.path .signdata) metadata.encode)
  return ⟨version, metadata⟩

/-- A publish once it has its numbers: it lists the versions of its queue, chooses the index of the
new version and creates it. -/
def placeVersion (s : Settings) (r : PublishRequest) (account sequence : UInt64) : Op Published := do
  let existing ← listVersions r.queue
  let index ← newIndex r.queue.pre r.policy existing
  createVersion s r account sequence index

theorem publish_eq (s : Settings) (r : PublishRequest) :
    publish s r = resolveNumbers r >>= fun (account, sequence) => placeVersion s r account sequence :=
  rfl

theorem storeOnly_createVersion (s : Settings) (r : PublishRequest) (account sequence index : UInt64) :
    (createVersion s r account sequence index).StoreOnly := by
  unfold createVersion
  dsimp only
  split
  · exact (storeOnly_listFiles _).bind fun _ => (storeOnly_removeAll _ _ _).bind fun _ =>
      (storeOnly_store _).bind fun _ => (storeOnly_store _).bind fun _ => .pure _
  · exact (storeOnly_store _).bind fun _ => (storeOnly_store _).bind fun _ => .pure _

section Decisions

variable {σ τ : Type} (st : StoreAnswer σ) (ch : ChainAnswer τ)

theorem exec_newIndex_scene (pre : String) (policy : ConflictPolicy) (V : List UInt64)
    (w : Scene σ τ) : (exec st ch (newIndex pre policy V) w).2 = w := by
  unfold newIndex
  cases policy <;> cases V.getLast?
  case additional.some highest =>
    by_cases hfit : highest.toNat + 1 < Nat.pow 2 64
    · simp only [if_pos hfit]
      rfl
    · simp only [if_neg hfit]
      rfl
  all_goals rfl

theorem exec_newIndex_refuse {pre : String} {V : List UInt64} (hV : V ≠ []) (w : Scene σ τ) :
    exec st ch (newIndex pre .refuse V) w = (.ok (.error (.alreadyExists pre)), w) := by
  obtain ⟨highest, hl⟩ := Option.ne_none_iff_exists'.mp (mt List.getLast?_eq_none_iff.mp hV)
  unfold newIndex
  rw [hl]
  rfl

theorem exec_newIndex_nil {pre : String} {policy : ConflictPolicy} (hp : policy ≠ .refuse)
    (w : Scene σ τ) :
    exec st ch (newIndex pre policy []) w = (.ok (.error (.nothingToModify pre)), w) := by
  cases policy
  case refuse => exact absurd rfl hp
  all_goals rfl

theorem exec_newIndex_overflow {pre : String} {V : List UInt64}
    (hl : V.getLast? = some 18446744073709551615) (w : Scene σ τ) :
    exec st ch (newIndex pre .additional V) w = (.error ⟨"attempt to add with overflow"⟩, w) := by
  unfold newIndex
  rw [hl]
  simp only
  rw [if_neg (by decide)]
  rfl

theorem newIndex_defect {pre : String} {policy : ConflictPolicy} {V : List UInt64}
    {w : Scene σ τ} {d : Defect} (h : (exec st ch (newIndex pre policy V) w).1 = .error d) :
    d = ⟨"attempt to add with overflow"⟩ ∧ policy = .additional ∧
      V.getLast? = some 18446744073709551615 := by
  unfold newIndex at h
  cases policy <;> cases hl : V.getLast? <;> simp only [hl] at h
  case additional.some highest =>
    split at h
    · cases h
    · rename_i hfull
      have hmax : highest = 18446744073709551615 := by
        have hlt := highest.toNat_lt_size
        rw [UInt64.size] at hlt
        apply UInt64.toNat_inj.mp
        simp only [Nat.pow_eq, UInt64.reduceToNat] at hfull ⊢
        omega
      rw [exec_abort] at h
      exact ⟨(Except.error.inj h).symm, rfl, hmax ▸ rfl⟩
  all_goals cases h

theorem exec_resolveNumbers_without_node {r : PublishRequest}
    (hpin : (r.account.isSome && r.sequence.isSome) = false)
    (hnode : r.node.filter (!·.isEmpty) = none) (w : Scene σ τ) :
    exec st ch (resolveNumbers r) w =
      (.ok (.error (.insufficientContext ("if --account and --sequence are not provided, " ++
        "a node must be specified in the config or with --node"))), w) := by
  unfold resolveNumbers
  split
  · rename_i a q ha hq
    simp [ha, hq] at hpin
  · simp only [hnode]
    rfl

theorem exec_resolveNumbers_query {r : PublishRequest} {node : String}
    (hpin : (r.account.isSome && r.sequence.isSome) = false)
    (hnode : r.node.filter (!·.isEmpty) = some node) (w : Scene σ τ) :
    exec st ch (resolveNumbers r) w =
      (.ok ((ch (.account r.address node) w.chain).1.map fun k =>
          (r.account.getD k.accountNumber, r.sequence.getD k.sequence)),
        { w with chain := (ch (.account r.address node) w.chain).2,
                 log := w.log ++ [⟨.chain (.account r.address node),
                   (ch (.account r.address node) w.chain).1⟩] }) := by
  unfold resolveNumbers
  split
  · rename_i a q ha hq
    simp [ha, hq] at hpin
  · simp only [hnode]
    cases hq : (ch (.account r.address node) w.chain).1 with
    | error e =>
      rw [exec_chain_bind_error st ch hq]
      rfl
    | ok k =>
      rw [exec_chain_bind_ok st ch hq, exec_pure]
      rfl

theorem exec_resolveNumbers_cases (r : PublishRequest) (w : Scene σ τ) :
    (∃ a q, r.account = some a ∧ r.sequence = some q ∧
      exec st ch (resolveNumbers r) w = (.ok (.ok (a, q)), w)) ∨
    ((r.account.isSome && r.sequence.isSome) = false ∧ r.node.filter (!·.isEmpty) = none ∧
      exec st ch (resolveNumbers r) w =
        (.ok (.error (.insufficientContext ("if --account and --sequence are not provided, " ++
          "a node must be specified in the config or with --node"))), w)) ∨
    ∃ node, (r.account.isSome && r.sequence.isSome) = false ∧
      r.node.filter (!·.isEmpty) = some node ∧
      exec st ch (resolveNumbers r) w =
        (.ok ((ch (.account r.address node) w.chain).1.map fun k =>
            (r.account.getD k.accountNumber, r.sequence.getD k.sequence)),
          { w with chain := (ch (.account r.address node) w.chain).2,
                   log := w.log ++ [⟨.chain (.account r.address node),
                     (ch (.account r.address node) w.chain).1⟩] }) := by
  cases hpin : (r.account.isSome && r.sequence.isSome)
  case true =>
    obtain ⟨ha, hq⟩ := Bool.and_eq_true_iff.mp hpin
    obtain ⟨a, ha⟩ := Option.isSome_iff_exists.mp ha
    obtain ⟨q, hq⟩ := Option.isSome_iff_exists.mp hq
    exact .inl ⟨a, q, ha, hq, exec_resolveNumbers_given st ch ha hq w⟩
  case false =>
    cases hnode : r.node.filter (!·.isEmpty)
    case none => exact .inr (.inl ⟨rfl, rfl, exec_resolveNumbers_without_node st ch hpin hnode w⟩)
    case some node => exact .inr (.inr ⟨node, rfl, rfl, exec_resolveNumbers_query st ch hpin hnode w⟩)

theorem resolveNumbers_isOk (r : PublishRequest) (w : Scene σ τ) :
    ∃ x, (exec st ch (resolveNumbers r) w).1 = .ok x := by
  rcases exec_resolveNumbers_cases st ch r w with ⟨a, q, -, -, hrun⟩ | ⟨-, -, hrun⟩ |
    ⟨node, -, -, hrun⟩ <;> rw [hrun]
  all_goals exact ⟨_, rfl⟩

theorem resolveNumbers_eq_ok_numbers {r : PublishRequest} {w w1 : Scene σ τ} {a q : UInt64}
    (h : exec st ch (resolveNumbers r) w = (.ok (.ok (a, q)), w1)) :
    (r.account = some a ∧ r.sequence = some q) ∨
      ∃ node k, (r.account.isSome && r.sequence.isSome) = false ∧
        r.node.filter (!·.isEmpty) = some node ∧ (ch (.account r.address node) w.chain).1 = .ok k ∧
        a = r.account.getD k.accountNumber ∧ q = r.sequence.getD k.sequence := by
  rcases exec_resolveNumbers_cases st ch r w with ⟨a', q', ha, hq, hrun⟩ | ⟨-, -, hrun⟩ |
    ⟨node, hpin, hnode, hrun⟩ <;> rw [hrun] at h
  · simp only [Prod.mk.injEq, Except.ok.injEq] at h
    obtain ⟨⟨rfl, rfl⟩, -⟩ := h
    exact .inl ⟨ha, hq⟩
  · cases h
  · cases hk : (ch (.account r.address node) w.chain).1 with
    | error e =>
      rw [hk] at h
      cases h
    | ok k =>
      rw [hk] at h
      simp only [Except.map, Prod.mk.injEq, Except.ok.injEq] at h
      obtain ⟨⟨rfl, rfl⟩, -⟩ := h
      exact .inr ⟨node, k, hpin, hnode, hk, rfl, rfl⟩

end Decisions

section Placement

variable {ρ τ : Type} (fate : StoreCall → ρ → Fate × ρ) (ch : ChainAnswer τ)

theorem exec_createVersion_eq_ok (s : Settings) (r : PublishRequest)
    (account sequence index : UInt64) {w w' : Scene (Lossy ρ) τ} {pub : Published}
    (h : exec (Lossy.answer fate) ch (createVersion s r account sequence index) w =
      (.ok (.ok pub), w')) :
    pub = ⟨r.queue.version index, ⟨account,
      if r.sequence.isSome then sequence else saturatingAdd sequence index, r.chainId,
      r.description⟩⟩ ∧
    ∃ cleared : Blobs,
      (r.policy = .force → ∃ files, w.store.blobs.files (r.queue.version index) = .ok files ∧
        cleared = (files.map (r.queue.version index).path).foldl Blobs.erase w.store.blobs) ∧
      (r.policy ≠ .force → cleared = w.store.blobs) ∧
      w'.store.blobs = (cleared.put ((r.queue.version index).path .unsigned) r.payload).put
        ((r.queue.version index).path .signdata) pub.metadata.encode := by
  unfold createVersion at h
  by_cases hf : r.policy = .force
  · rw [if_pos hf] at h
    obtain ⟨files, w1, h1, h⟩ := exec_bind_eq_ok _ ch h
    rw [exec_listFiles] at h1
    simp only [Prod.mk.injEq, Except.ok.injEq] at h1
    obtain ⟨hfiles, rfl⟩ := h1
    obtain ⟨u, w2, h2, h⟩ := exec_bind_eq_ok _ ch h
    obtain ⟨hnodup, hpresent⟩ := Blobs.paths_of_files hfiles
    have hw2 := exec_removeAll_eq_ok fate ch s _ _ (by exact hpresent) hnodup h2
    obtain ⟨rfl, hw'⟩ := exec_writeVersion_eq_ok fate ch h
    exact ⟨rfl, _, fun _ => ⟨files, hfiles, rfl⟩, fun hnf => absurd hf hnf, by rw [hw', hw2]⟩
  · rw [if_neg hf] at h
    obtain ⟨rfl, hw'⟩ := exec_writeVersion_eq_ok fate ch h
    exact ⟨rfl, _, fun hf' => absurd hf' hf, fun _ => rfl, hw'⟩

theorem exec_placeVersion_refusals (s : Settings) (r : PublishRequest) (account sequence : UInt64)
    (w : Scene (Lossy ρ) τ) :
    let run := exec (Lossy.answer fate) ch (placeVersion s r account sequence) w
    (∀ e, w.store.blobs.versions r.queue = .error e →
      run.1 = .ok (.error e) ∧ run.2.store = w.store) ∧
    ∀ V, w.store.blobs.versions r.queue = .ok V →
      (r.policy = .refuse → V ≠ [] →
        run.1 = .ok (.error (.alreadyExists r.queue.pre)) ∧ run.2.store = w.store) ∧
      (r.policy ≠ .refuse → V = [] →
        run.1 = .ok (.error (.nothingToModify r.queue.pre)) ∧ run.2.store = w.store) ∧
      (r.policy = .additional → V.getLast? = some 18446744073709551615 →
        run.1 = .error ⟨"attempt to add with overflow"⟩ ∧ run.2.store = w.store) := by
  intro run
  have hlist := exec_listVersions fate ch r.queue w
  refine ⟨fun e he => ?_, fun V hV => ?_⟩
  · rw [he] at hlist
    rw [show run = _ from exec_bind_error _ ch hlist]
    exact ⟨rfl, rfl⟩
  · rw [hV] at hlist
    have hrun : run = exec (Lossy.answer fate) ch
        (newIndex r.queue.pre r.policy V >>= createVersion s r account sequence) _ :=
      exec_bind_ok _ ch hlist
    refine ⟨fun hp hne => ?_, fun hp hnil => ?_, fun hp hl => ?_⟩
    · rw [hrun, hp, exec_bind_error _ ch (exec_newIndex_refuse _ ch hne _)]
      exact ⟨rfl, rfl⟩
    · subst hnil
      rw [hrun, exec_bind_error _ ch (exec_newIndex_nil _ ch hp _)]
      exact ⟨rfl, rfl⟩
    · rw [hrun, hp, exec_bind_defect (exec_newIndex_overflow _ ch hl _)]
      exact ⟨rfl, rfl⟩

theorem placeVersion_defect (s : Settings) (r : PublishRequest) (account sequence : UInt64)
    {w : Scene (Lossy ρ) τ} {d : Defect}
    (h : (exec (Lossy.answer fate) ch (placeVersion s r account sequence) w).1 = .error d) :
    d = ⟨"attempt to add with overflow"⟩ ∧ r.policy = .additional ∧
      ∃ V, w.store.blobs.versions r.queue = .ok V ∧ V.getLast? = some 18446744073709551615 := by
  have hlist := exec_listVersions fate ch r.queue w
  cases hV : w.store.blobs.versions r.queue with
  | error e =>
    rw [hV] at hlist
    rw [placeVersion, exec_bind_error _ ch hlist] at h
    cases h
  | ok V =>
    rw [hV] at hlist
    rw [placeVersion, exec_bind_ok _ ch hlist, exec_bind] at h
    rcases hi : exec (Lossy.answer fate) ch (newIndex r.queue.pre r.policy V) _ with
      ⟨d' | e | i, w1⟩
    · -- the choice of the index stopped
      obtain ⟨hd, hp, hl⟩ := newIndex_defect _ ch (congrArg Prod.fst hi)
      rw [hi] at h
      cases h
      exact ⟨hd, hp, V, rfl, hl⟩
    · rw [hi] at h
      cases h
    · obtain ⟨x, w2, hrun, -⟩ := (storeOnly_createVersion s r account sequence i).exec
        (Lossy.answer fate) ch w1
      rw [hi] at h
      dsimp only at h
      rw [hrun] at h
      cases h

theorem exec_placeVersion_eq_ok (s : Settings) (r : PublishRequest) (account sequence : UInt64)
    {w w' : Scene (Lossy ρ) τ} {pub : Published}
    (h : exec (Lossy.answer fate) ch (placeVersion s r account sequence) w = (.ok (.ok pub), w')) :
    (∃ V, w.store.blobs.versions r.queue = .ok V ∧ r.policy.Chooses V pub.version.index) ∧
    pub.version.queue = r.queue ∧
    pub.metadata = ⟨account, if r.sequence.isSome then sequence
      else saturatingAdd sequence pub.version.index, r.chainId, r.description⟩ ∧
    ∃ cleared : Blobs,
      (r.policy = .force → ∃ files, w.store.blobs.files pub.version = .ok files ∧
        cleared = (files.map pub.version.path).foldl Blobs.erase w.store.blobs) ∧
      (r.policy ≠ .force → cleared = w.store.blobs) ∧
      w'.store.blobs = (cleared.put (pub.version.path .unsigned) r.payload).put
        (pub.version.path .signdata) pub.metadata.encode := by
  obtain ⟨V, w1, h1, h⟩ := exec_bind_eq_ok _ ch h
  rw [exec_listVersions] at h1
  simp only [Prod.mk.injEq, Except.ok.injEq] at h1
  obtain ⟨hV, rfl⟩ := h1
  obtain ⟨index, w2, h2, h⟩ := exec_bind_eq_ok _ ch h
  obtain ⟨rfl, hchoose⟩ := newIndex_eq_ok _ ch (Blobs.versions_ascending hV) h2
  obtain ⟨rfl, cleared, hforce, hkeep, hblobs⟩ := exec_createVersion_eq_ok fate ch s r _ _ _ h
  exact ⟨⟨V, hV, hchoose⟩, rfl, rfl, cleared, hforce, hkeep, hblobs⟩

theorem quiet_placeVersion (s : Settings) (r : PublishRequest) (account sequence : UInt64) :
    (placeVersion s r account sequence).Quiet :=
  (ReadsOnly.listVersions r.queue).quiet.bind fun V =>
    Quiet.bind (fun _ _ _ _ w => ⟨[], by rw [exec_newIndex_scene, List.append_nil], by simp⟩)
      fun i => (storeOnly_createVersion s r account sequence i).quiet

theorem publish_pinned_sends_nothing (s : Settings) (r : PublishRequest)
    (hpin : (r.account.isSome && r.sequence.isSome) = true) (w : Scene (Lossy ρ) τ) :
    ((exec (Lossy.answer fate) ch (publish s r) w).2.log.drop w.log.length).filter
      (·.1.isChain) = [] := by
  obtain ⟨ha, hq⟩ := Bool.and_eq_true_iff.mp hpin
  obtain ⟨a, ha⟩ := Option.isSome_iff_exists.mp ha
  obtain ⟨q, hq⟩ := Option.isSome_iff_exists.mp hq
  rw [publish_eq, exec_bind_ok _ ch (exec_resolveNumbers_given _ ch ha hq w)]
  obtain ⟨new, hlog, hnew⟩ := quiet_placeVersion s r a q _ _ fate ch w
  rw [chainCalls_of_log hlog, List.filter_eq_nil_iff]
  exact fun e he => by simp [hnew e he]

theorem exec_publish_without_node (s : Settings) (r : PublishRequest)
    (hpin : (r.account.isSome && r.sequence.isSome) = false)
    (hnode : r.node.filter (!·.isEmpty) = none) (w : Scene (Lossy ρ) τ) :
    exec (Lossy.answer fate) ch (publish s r) w =
      (.ok (.error (.insufficientContext ("if --account and --sequence are not provided, " ++
        "a node must be specified in the config or with --node"))), w) := by
  rw [publish_eq]
  exact exec_bind_error _ ch (exec_resolveNumbers_without_node _ ch hpin hnode w)

theorem publish_queries_once (s : Settings) (r : PublishRequest)
    (hpin : (r.account.isSome && r.sequence.isSome) = false) {node : String}
    (hnode : r.node.filter (!·.isEmpty) = some node) (w : Scene (Lossy ρ) τ) :
    ∃ reply, ((exec (Lossy.answer fate) ch (publish s r) w).2.log.drop w.log.length).filter
        (·.1.isChain) = [⟨.chain (.account r.address node), reply⟩] ∧
      ∀ e, reply = .error e → (exec (Lossy.answer fate) ch (publish s r) w).1 = .ok (.error e) ∧
        (exec (Lossy.answer fate) ch (publish s r) w).2.store = w.store := by
  have hres := exec_resolveNumbers_query (Lossy.answer fate) ch hpin hnode w
  rw [publish_eq]
  cases hk : (ch (.account r.address node) w.chain).1 with
  | error e =>
    rw [hk] at hres
    rw [exec_bind_error _ ch hres]
    refine ⟨.error e, by rw [chainCalls_of_log rfl]; rfl, fun e' he' => ?_⟩
    cases he'
    exact ⟨rfl, rfl⟩
  | ok k =>
    rw [hk] at hres
    rw [exec_bind_ok _ ch hres]
    obtain ⟨new, hlog, hnew⟩ := quiet_placeVersion s r _ _ _ _ fate ch _
    have hquiet : new.filter (·.1.isChain) = [] :=
      List.filter_eq_nil_iff.mpr fun e he => by simp [hnew e he]
    refine ⟨.ok k, ?_, fun e he => by cases he⟩
    rw [chainCalls_of_log (hlog.trans (List.append_assoc _ _ _)), List.filter_append, hquiet,
      List.append_nil]
    rfl

theorem exec_publish_refusals (s : Settings) (r : PublishRequest) {numbers : UInt64 × UInt64}
    {w w1 : Scene (Lossy ρ) τ}
    (h : exec (Lossy.answer fate) ch (resolveNumbers r) w = (.ok (.ok numbers), w1)) :
    let run := exec (Lossy.answer fate) ch (publish s r) w
    (∀ e, w.store.blobs.versions r.queue = .error e →
      run.1 = .ok (.error e) ∧ run.2.store = w.store) ∧
    ∀ V, w.store.blobs.versions r.queue = .ok V →
      (r.policy = .refuse → V ≠ [] →
        run.1 = .ok (.error (.alreadyExists r.queue.pre)) ∧ run.2.store = w.store) ∧
      (r.policy ≠ .refuse → V = [] →
        run.1 = .ok (.error (.nothingToModify r.queue.pre)) ∧ run.2.store = w.store) ∧
      (r.policy = .additional → V.getLast? = some 18446744073709551615 →
        run.1 = .error ⟨"attempt to add with overflow"⟩ ∧ run.2.store = w.store) := by
  obtain ⟨a, q⟩ := numbers
  have hstore := (resolveNumbers_eq_ok _ ch h).1
  have hplace := exec_placeVersion_refusals fate ch s r a q w1
  rw [hstore] at hplace
  rw [publish_eq, exec_bind_ok _ ch h]
  exact hplace

theorem publish_defect (s : Settings) (r : PublishRequest) {w : Scene (Lossy ρ) τ} {d : Defect}
    (h : (exec (Lossy.answer fate) ch (publish s r) w).1 = .error d) :
    d = ⟨"attempt to add with overflow"⟩ ∧ r.policy = .additional ∧
      ∃ V, w.store.blobs.versions r.queue = .ok V ∧ V.getLast? = some 18446744073709551615 := by
  obtain ⟨x, hx⟩ := resolveNumbers_isOk (Lossy.answer fate) ch r w
  rw [publish_eq, exec_bind] at h
  rcases hres : exec (Lossy.answer fate) ch (resolveNumbers r) w with ⟨d' | e | ⟨a, q⟩, w1⟩
  · rw [hres] at hx
    cases hx
  · rw [hres] at h
    cases h
  · rw [hres] at h
    rw [← (resolveNumbers_eq_ok _ ch hres).1]
    exact placeVersion_defect fate ch s r a q h

theorem exec_publish_writes_exactly (s : Settings) (r : PublishRequest)
    {w w' : Scene (Lossy ρ) τ} {pub : Published}
    (h : exec (Lossy.answer fate) ch (publish s r) w = (.ok (.ok pub), w')) :
    (∃ V, w.store.blobs.versions r.queue = .ok V ∧ r.policy.Chooses V pub.version.index) ∧
    pub.version.queue = r.queue ∧ pub.metadata.chainId = r.chainId ∧
    pub.metadata.description = r.description ∧
    ((r.account = some pub.metadata.account ∧ r.sequence = some pub.metadata.sequence) ∨
      ∃ node k, (r.account.isSome && r.sequence.isSome) = false ∧
        r.node.filter (!·.isEmpty) = some node ∧ (ch (.account r.address node) w.chain).1 = .ok k ∧
        pub.metadata.account = r.account.getD k.accountNumber ∧
        pub.metadata.sequence = r.sequence.getD (saturatingAdd k.sequence pub.version.index)) ∧
    ∃ cleared : Blobs,
      (r.policy = .force → ∃ files, w.store.blobs.files pub.version = .ok files ∧
        cleared = (files.map pub.version.path).foldl Blobs.erase w.store.blobs) ∧
      (r.policy ≠ .force → cleared = w.store.blobs) ∧
      w'.store.blobs = (cleared.put (pub.version.path .unsigned) r.payload).put
        (pub.version.path .signdata) pub.metadata.encode := by
  rw [publish_eq] at h
  obtain ⟨⟨a, q⟩, w1, h1, h⟩ := exec_bind_eq_ok _ ch h
  have hstore := (resolveNumbers_eq_ok _ ch h1).1
  obtain ⟨hchoose, hqueue, hmeta, cleared, hforce, hkeep, hblobs⟩ :=
    exec_placeVersion_eq_ok fate ch s r a q h
  rw [hstore] at hchoose hforce hkeep
  refine ⟨hchoose, hqueue, by rw [hmeta], by rw [hmeta], ?_, cleared, hforce, hkeep, hblobs⟩
  rw [hmeta]
  rcases resolveNumbers_eq_ok_numbers _ ch h1 with ⟨ha, hq⟩ | ⟨node, k, hpin, hnode, hk, rfl, rfl⟩
  · exact .inl ⟨ha, by simp [hq]⟩
  · refine .inr ⟨node, k, hpin, hnode, hk, rfl, ?_⟩
    cases r.sequence <;> rfl

/-- A publish, on a memory store whose writes may fail and with any node. It asks the node
nothing when both numbers are given; with a number missing and no node named it refuses before any
call; otherwise it asks the node exactly once, and a fault of the query ends it. Once the numbers
are found it refuses a fault of the listing, a version already there without a policy, and a policy
with nothing to modify, before it writes; a queued publish after the largest word stops on the
overflow of the new index, which is the only defect of a publish. A publish that returns created
the version its policy chooses, with the given numbers or the node's, the node's sequence advanced
by the new index, and wrote nothing besides the payload and the metadata there, a forced publish
after removing every file listed for the version. -/
theorem publish_decides_writes_and_fails (s : Settings) (r : PublishRequest)
    (w : Scene (Lossy ρ) τ) :
    let run := exec (Lossy.answer fate) ch (publish s r) w
    let b := w.store.blobs
    let sent := (run.2.log.drop w.log.length).filter (·.1.isChain)
    let pinned := r.account.isSome && r.sequence.isSome
    (pinned = true → sent = []) ∧
    (pinned = false → r.node.filter (!·.isEmpty) = none →
      run = (.ok (.error (.insufficientContext ("if --account and --sequence are not provided, " ++
        "a node must be specified in the config or with --node"))), w)) ∧
    (pinned = false → ∀ node, r.node.filter (!·.isEmpty) = some node →
      ∃ reply, sent = [⟨.chain (.account r.address node), reply⟩] ∧
        ∀ e, reply = .error e → run.1 = .ok (.error e) ∧ run.2.store = w.store) ∧
    (∀ numbers w1, exec (Lossy.answer fate) ch (resolveNumbers r) w = (.ok (.ok numbers), w1) →
      (∀ e, b.versions r.queue = .error e → run.1 = .ok (.error e) ∧ run.2.store = w.store) ∧
      ∀ V, b.versions r.queue = .ok V →
        (r.policy = .refuse → V ≠ [] →
          run.1 = .ok (.error (.alreadyExists r.queue.pre)) ∧ run.2.store = w.store) ∧
        (r.policy ≠ .refuse → V = [] →
          run.1 = .ok (.error (.nothingToModify r.queue.pre)) ∧ run.2.store = w.store) ∧
        (r.policy = .additional → V.getLast? = some 18446744073709551615 →
          run.1 = .error ⟨"attempt to add with overflow"⟩ ∧ run.2.store = w.store)) ∧
    (∀ d, run.1 = .error d → d = ⟨"attempt to add with overflow"⟩ ∧ r.policy = .additional ∧
      ∃ V, b.versions r.queue = .ok V ∧ V.getLast? = some 18446744073709551615) ∧
    ∀ pub, run.1 = .ok (.ok pub) →
      (∃ V, b.versions r.queue = .ok V ∧ r.policy.Chooses V pub.version.index) ∧
      pub.version.queue = r.queue ∧ pub.metadata.chainId = r.chainId ∧
      pub.metadata.description = r.description ∧
      ((r.account = some pub.metadata.account ∧ r.sequence = some pub.metadata.sequence) ∨
        ∃ node k, pinned = false ∧ r.node.filter (!·.isEmpty) = some node ∧
          (ch (.account r.address node) w.chain).1 = .ok k ∧
          pub.metadata.account = r.account.getD k.accountNumber ∧
          pub.metadata.sequence = r.sequence.getD (saturatingAdd k.sequence pub.version.index)) ∧
      ∃ cleared : Blobs,
        (r.policy = .force → ∃ files, b.files pub.version = .ok files ∧
          cleared = (files.map pub.version.path).foldl Blobs.erase b) ∧
        (r.policy ≠ .force → cleared = b) ∧
        run.2.store.blobs = (cleared.put (pub.version.path .unsigned) r.payload).put
          (pub.version.path .signdata) pub.metadata.encode := by
  intro run b sent pinned
  refine ⟨fun hpin => publish_pinned_sends_nothing fate ch s r hpin w,
    fun hpin hnode => exec_publish_without_node fate ch s r hpin hnode w,
    fun hpin node hnode => publish_queries_once fate ch s r hpin hnode w,
    fun numbers w1 h => exec_publish_refusals fate ch s r h,
    fun d h => publish_defect fate ch s r h,
    fun pub h => exec_publish_writes_exactly fate ch s r (Prod.ext h rfl)⟩

end Placement

end Op

namespace Sample

def lastStore : Blobs :=
  (Blobs.empty.put ((pendingQueue.version 18446744073709551615).path .unsigned)
    "\x7b\x7d".toUTF8).put ((pendingQueue.version 18446744073709551615).path .signdata)
    "\x7b\"account\":5,\"sequence\":12,\"chain-id\":\"c-1\"\x7d".toUTF8

def lastWorld : Scene (Lossy Unit) Unit := ⟨⟨(), lastStore⟩, (), []⟩

end Sample

namespace Op

/-- A queued publish with both numbers given, on the queue whose one version is numbered
18446744073709551615, stops on the overflow of the next index, with the store as it was. -/
theorem publish_after_largest_version_overflows :
    let run := exec (Lossy.answer Lossy.reliable) Sample.chain
      (publish Sample.settings (Sample.pinned .additional 12)) Sample.lastWorld
    (Sample.lastStore.versions Sample.pendingQueue).toOption = some [18446744073709551615] ∧
      run.1 = .error ⟨"attempt to add with overflow"⟩ ∧ run.2.store = Sample.lastWorld.store := by
  intro run
  have hlisted : (Sample.lastStore.versions Sample.pendingQueue).toOption =
      some [18446744073709551615] := by
    decide +kernel
  have hV : Sample.lastStore.versions Sample.pendingQueue = .ok [18446744073709551615] := by
    revert hlisted
    cases Sample.lastStore.versions Sample.pendingQueue <;> simp [Except.toOption]
  have hres := exec_resolveNumbers_given (Lossy.answer Lossy.reliable) Sample.chain
    (r := Sample.pinned .additional 12) rfl rfl Sample.lastWorld
  exact ⟨hlisted,
    ((exec_publish_refusals Lossy.reliable Sample.chain Sample.settings _ hres).2 _ hV).2.2 rfl rfl⟩

end Op

end Quorum
