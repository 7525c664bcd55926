import Quorum.Proofs.Density
import Mathlib.Data.List.Dedup

/-!
# A transaction from publish to broadcast

On a reliable memory store with nothing under a queue, a first publish with its account number
and sequence given creates version 0 (`Op.exec_publish_first`). Signing it under names that
signing accepts, in any order and with repetitions, succeeds each time, and the version keeps for
each name the signature of its last signing (`Op.signing_phase`, by induction on the number of
signings with the invariant `Op.SignedUpTo` and its step `Op.SignedUpTo.succ`). A broadcast of
version 0 that always removes it then either finds fewer distinct signers than its threshold and
changes nothing, or combines the kept signatures in ascending order of names with the payload and
the published metadata, submits the result, and leaves nothing under the queue
(`Op.publish_sign_broadcast`).
-/

namespace Quorum

theorem Scene.answer_log {σ τ : Type} (st : StoreAnswer σ) (ch : ChainAnswer τ) (r : Request)
    (w : Scene σ τ) : (answer st ch r w).2.log = w.log ++ [⟨r, (answer st ch r w).1⟩] := by
  cases r <;> rfl

@[simp] theorem Lossy.answer_reliable_put (p : String) (d : ByteArray) (s : Lossy Unit) :
    (Lossy.answer Lossy.reliable (.put p d) s).2 = ⟨(), s.blobs.put p d⟩ :=
  rfl

namespace Op

section Log

variable {σ τ α : Type} (st : StoreAnswer σ) (ch : ChainAnswer τ)

theorem run_log_extends (p : Program Coordination α) (w : Scene σ τ) :
    ∃ new, (Program.run (Scene.answer st ch) p w).2.log = w.log ++ new := by
  induction p generalizing w with
  | pure a => exact ⟨[], (List.append_nil _).symm⟩
  | call r next ih =>
    obtain ⟨new, h⟩ := ih (Scene.answer st ch r w).1 (Scene.answer st ch r w).2
    refine ⟨⟨r, (Scene.answer st ch r w).1⟩ :: new, ?_⟩
    change (Program.run (Scene.answer st ch) (next (Scene.answer st ch r w).1)
      (Scene.answer st ch r w).2).2.log = _
    rw [h]
    exact (congrArg (· ++ new) (Scene.answer_log st ch r w)).trans (List.append_assoc _ _ _)
  | abort d => exact ⟨[], (List.append_nil _).symm⟩

theorem exec_log_extends (op : Op α) (w : Scene σ τ) :
    ∃ new, (exec st ch op w).2.log = w.log ++ new :=
  run_log_extends st ch op.run w

theorem exec_put_bind_ok {β : Type} {p : String} {d : ByteArray} {k : Op β} {w : Scene σ τ}
    (h : (st (.put p d) w.store).1 = .ok ()) :
    exec st ch (do store (.put p d); k) w =
      exec st ch k { w with store := (st (.put p d) w.store).2,
                            log := w.log ++ [⟨.store (.put p d), .ok ()⟩] } :=
  exec_store_bind_ok st ch h

end Log

variable {τ : Type} (ch : ChainAnswer τ)

theorem exec_publish_first (s : Settings) {r : PublishRequest} {account sequence : UInt64}
    (ha : r.account = some account) (hs : r.sequence = some sequence) (hp : r.policy = .refuse)
    (w : Scene (Lossy Unit) τ) (hempty : w.store.blobs.under r.queue.pre = []) :
    let v := r.queue.version 0
    let m : Metadata := ⟨account, sequence, r.chainId, r.description⟩
    ∃ w', exec (Lossy.answer Lossy.reliable) ch (publish s r) w = (.ok (.ok ⟨v, m⟩), w') ∧
      w'.store.blobs =
        (w.store.blobs.put (v.path .unsigned) r.payload).put (v.path .signdata) m.encode ∧
      w'.chain = w.chain := by
  intro v m
  have hV : w.store.blobs.versions r.queue = .ok [] := by
    rw [Blobs.versions, hempty]
    rfl
  have hindex (w' : Scene (Lossy Unit) τ) :
      exec (Lossy.answer Lossy.reliable) ch (newIndex r.queue.pre r.policy []) w' =
        (.ok (.ok 0), w') := by
    rw [hp]
    rfl
  unfold publish
  rw [exec_bind_ok _ ch (exec_resolveNumbers_given _ ch ha hs w)]
  dsimp only
  rw [exec_bind_ok _ ch ((exec_listVersions _ ch r.queue w).trans (by rw [hV])),
    exec_bind_ok _ ch (hindex _), if_neg (by simp [hp]), exec_put_bind_ok _ ch rfl,
    exec_put_bind_ok _ ch rfl, exec_pure]
  have hsequence : (if r.sequence.isSome then sequence else saturatingAdd sequence 0) = sequence := by
    simp [hs]
  simp only [Lossy.answer_reliable_put, hsequence]
  exact ⟨_, rfl, rfl, rfl⟩

theorem exec_sign_stored (r : SignRequest) (w : Scene (Lossy Unit) τ) {payload d sig : ByteArray}
    {m : Metadata} (hu : w.store.blobs.get? (r.version.path .unsigned) = some payload)
    (hd : w.store.blobs.get? (r.version.path .signdata) = some d) (hm : Metadata.decode d = .ok m)
    {a : Artifact} (ha : Artifact.signature? r.signer = .ok a)
    (hsig : (ch (.sign payload r.multisigAddress r.keyName m) w.chain).1 = .ok sig) :
    ∃ w', exec (Lossy.answer Lossy.reliable) ch (sign r) w =
        (.ok (.ok ⟨r.version, .signature r.signer⟩), w') ∧
      w'.store.blobs = w.store.blobs.put (r.version.path (.signature r.signer)) sig ∧
      w'.chain = (ch (.sign payload r.multisigAddress r.keyName m) w.chain).2 := by
  obtain rfl := Artifact.eq_signature_of_signature? ha
  obtain ⟨reads, -, hprep⟩ := readsOnly_prepareSign r.version Unit τ Lossy.reliable ch w
  have hbundle : w.store.blobs.prepareSign r.version = .ok ⟨r.version, payload, m⟩ := by
    simp [Blobs.prepareSign, Blobs.fetch_eq_ok.mpr hu, Blobs.fetch_eq_ok.mpr hd,
      Blobs.decodeMetadata, hm]
  simp only [hbundle] at hprep
  unfold sign
  rw [exec_bind_ok _ ch hprep]
  unfold completeSign
  dsimp only
  rw [ha]
  dsimp only
  rw [exec_bind_ok _ ch (exec_pure _ ch _ _),
    exec_chain_bind_ok (w := { w with log := w.log ++ reads }) _ ch hsig,
    exec_put_bind_ok _ ch rfl, exec_pure]
  exact ⟨_, rfl, rfl, rfl⟩

end Op

namespace Blobs

theorem get?_put {b : Blobs} {k k' : String} {d : ByteArray} :
    (b.put k d).get? k' = if k = k' then some d else b.get? k' := by
  by_cases h : k = k'
  · subst h
    simp
  · simp [get?, put, Std.ExtTreeMap.getElem?_insert, h]

end Blobs

theorem Version.path_injective (v : Version) {a a' : Artifact} (ha : a.Valid) (ha' : a'.Valid)
    (h : v.path a = v.path a') : a = a' := by
  have hnames : a.name = a'.name := by
    have := congrArg String.toList h
    simp only [Version.path, String.toList_append, List.append_cancel_left_eq] at this
    exact String.toList_inj.mp this
  rw [← ha.2, ← ha'.2, hnames]

namespace Action

variable {τ : Type} (ch : ChainAnswer τ) (s : Settings)

theorem run_append (xs ys : List Action) (w : Scene (Lossy Unit) τ) :
    run ch s (xs ++ ys) w = run ch s ys (run ch s xs w) := by
  induction xs generalizing w with
  | nil => rfl
  | cons a as ih => exact ih _

theorem run_take_succ (signs : List SignRequest) {i : Nat} (hi : i < signs.length)
    (w : Scene (Lossy Unit) τ) :
    run ch s ((signs.take (i + 1)).map sign) w =
      (Op.exec (Lossy.answer Lossy.reliable) ch (Op.sign signs[i])
        (run ch s ((signs.take i).map sign) w)).2 := by
  rw [List.take_add_one, List.getElem?_eq_getElem hi, Option.toList_some, List.map_append,
    run_append]
  rfl

end Action

namespace Op

variable {τ : Type} (ch : ChainAnswer τ) (s : Settings)

section Signing

variable (v : Version) (payload : ByteArray) (m : Metadata) (signs : List SignRequest)
  (w : Scene (Lossy Unit) τ)

/-- The world after the first `j` requests of `signs` have signed, one after another, from `w`. -/
def afterSignings (j : Nat) : Scene (Lossy Unit) τ :=
  Action.run ch s ((signs.take j).map .sign) w

/-- What signing with the first `i` requests of `signs` leaves: each of them succeeded; the
payload, the metadata, the tidiness of the queue and its one version `v` stay; a signature file of
`v` exists exactly under the names signed; and each holds the chain's answer to the last signing
under its name. -/
structure SignedUpTo (i : Nat) : Prop where
  signed : ∀ (j : Nat) (hj : j < signs.length), j < i →
    (exec (Lossy.answer Lossy.reliable) ch (sign signs[j]) (afterSignings ch s signs w j)).1 =
      .ok (.ok ⟨v, .signature signs[j].signer⟩)
  unsigned : (afterSignings ch s signs w i).store.blobs.get? (v.path .unsigned) = some payload
  signdata : (afterSignings ch s signs w i).store.blobs.get? (v.path .signdata) = some m.encode
  tidy : (afterSignings ch s signs w i).store.blobs.Tidy v.queue
  holds : ∀ j, (afterSignings ch s signs w i).store.blobs.Holds v.queue j → j = v.index
  contains : ∀ n, (Artifact.signature n).Valid →
    ((afterSignings ch s signs w i).store.blobs.contains (v.path (.signature n)) ↔
      ∃ (j : Nat) (hj : j < signs.length), j < i ∧ signs[j].signer = n)
  last : ∀ n d, (Artifact.signature n).Valid →
    (afterSignings ch s signs w i).store.blobs.get? (v.path (.signature n)) = some d →
    ∃ (j : Nat) (hj : j < signs.length), j < i ∧ signs[j].signer = n ∧
      (∀ (j' : Nat) (hj' : j' < signs.length), j < j' → j' < i → signs[j'].signer ≠ n) ∧
      (ch (.sign payload signs[j].multisigAddress signs[j].keyName m)
        (afterSignings ch s signs w j).chain).1 = .ok d

variable {v payload m signs w}

theorem SignedUpTo.zero (hu : w.store.blobs.get? (v.path .unsigned) = some payload)
    (hm : w.store.blobs.get? (v.path .signdata) = some m.encode)
    (htidy : w.store.blobs.Tidy v.queue) (hholds : ∀ j, w.store.blobs.Holds v.queue j → j = v.index)
    (hfresh : ∀ n, (Artifact.signature n).Valid →
      w.store.blobs.contains (v.path (.signature n)) = false) :
    SignedUpTo ch s v payload m signs w 0 where
  signed _ _ hj := absurd hj (Nat.not_lt_zero _)
  unsigned := hu
  signdata := hm
  tidy := htidy
  holds := hholds
  contains n hn := by simp [afterSignings, Action.run, hfresh n hn]
  last n d hn hd := by
    simp only [afterSignings, List.take_zero, List.map_nil, Action.run] at hd
    have hc : w.store.blobs.contains (v.path (.signature n)) := by
      simp [Blobs.contains_eq_isSome, hd]
    simp [hfresh n hn] at hc

theorem SignedUpTo.succ {i : Nat} (hi : i < signs.length) (h : SignedUpTo ch s v payload m signs w i)
    (hversion : signs[i].version = v) {a : Artifact} (ha : Artifact.signature? signs[i].signer = .ok a)
    (hsign : ∀ p addr k m t, ∃ sig : ByteArray, (ch (.sign p addr k m) t).1 = .ok sig) :
    SignedUpTo ch s v payload m signs w (i + 1) := by
  have hvalid : (Artifact.signature signs[i].signer).Valid :=
    Artifact.eq_signature_of_signature? ha ▸ Artifact.valid_of_signature? ha
  obtain ⟨sig, hsig⟩ :=
    hsign payload signs[i].multisigAddress signs[i].keyName m (afterSignings ch s signs w i).chain
  obtain ⟨w', hrun, hblobs, -⟩ := exec_sign_stored ch signs[i] (afterSignings ch s signs w i)
    (hversion ▸ h.unsigned) (hversion ▸ h.signdata) (Metadata.decode_encode m) ha hsig
  have hW : (afterSignings ch s signs w (i + 1)).store.blobs =
      (afterSignings ch s signs w i).store.blobs.put (v.path (.signature signs[i].signer)) sig := by
    change (Action.run ch s ((signs.take (i + 1)).map .sign) w).store.blobs = _
    rw [Action.run_take_succ ch s signs hi]
    exact (congrArg (·.2.store.blobs) hrun).trans (hversion ▸ hblobs)
  have hne (a' : Artifact) (ha' : a'.Valid) (hsa : a' ≠ .signature signs[i].signer) :
      v.path (.signature signs[i].signer) ≠ v.path a' :=
    fun hp => hsa (Version.path_injective v hvalid ha' hp).symm
  have hpath (n : String) (hn : (Artifact.signature n).Valid) :
      v.path (.signature signs[i].signer) = v.path (.signature n) ↔ signs[i].signer = n :=
    ⟨fun hp => by simpa using Version.path_injective v hvalid hn hp, fun hp => by rw [hp]⟩
  refine ⟨fun j hj hji => ?_, ?_, ?_, ?_, fun j hj => ?_, fun n hn => ?_, fun n d hn hd => ?_⟩
  · rcases Nat.lt_succ_iff_lt_or_eq.mp hji with hji | rfl
    · exact h.signed j hj hji
    · rw [hrun, hversion]
  · rw [hW, Blobs.get?_put, if_neg (hne _ Artifact.valid_unsigned (by simp)), h.unsigned]
  · rw [hW, Blobs.get?_put, if_neg (hne _ Artifact.valid_signdata (by simp)), h.signdata]
  · rw [hW]
    exact h.tidy.put v hvalid sig
  · rw [hW] at hj
    rcases (Blobs.holds_put v _ sig j).mp hj with hj | hj
    · exact h.holds j hj
    · rw [hj]
      rfl
  · rw [hW, Blobs.contains_put, Bool.or_eq_true, beq_iff_eq, hpath n hn, h.contains n hn]
    constructor
    · rintro (hin | ⟨j, hj, hji, hjn⟩)
      · exact ⟨i, hi, Nat.lt_succ_self i, hin⟩
      · exact ⟨j, hj, Nat.lt_succ_of_lt hji, hjn⟩
    · rintro ⟨j, hj, hji, hjn⟩
      rcases Nat.lt_succ_iff_lt_or_eq.mp hji with hji | rfl
      · exact .inr ⟨j, hj, hji, hjn⟩
      · exact .inl hjn
  · rw [hW, Blobs.get?_put] at hd
    by_cases hin : signs[i].signer = n
    · -- the last signature under `n` is the one just written
      rw [if_pos ((hpath n hn).mpr hin)] at hd
      cases hd
      refine ⟨i, hi, Nat.lt_succ_self i, hin, fun j' hj' hij' hj'i => ?_, hsig⟩
      exact absurd hj'i (Nat.not_lt.mpr hij')
    · rw [if_neg (fun hp => hin ((hpath n hn).mp hp))] at hd
      obtain ⟨j, hj, hji, hjn, hlater, hout⟩ := h.last n d hn hd
      refine ⟨j, hj, Nat.lt_succ_of_lt hji, hjn, fun j' hj' hjj' hj'i => ?_, hout⟩
      rcases Nat.lt_succ_iff_lt_or_eq.mp hj'i with hj'i | rfl
      · exact hlater j' hj' hjj' hj'i
      · exact hin

end Signing

theorem signing_phase (v : Version) (payload : ByteArray) (m : Metadata) (signs : List SignRequest)
    (w : Scene (Lossy Unit) τ)
    (hu : w.store.blobs.get? (v.path .unsigned) = some payload)
    (hm : w.store.blobs.get? (v.path .signdata) = some m.encode)
    (htidy : w.store.blobs.Tidy v.queue) (hholds : ∀ j, w.store.blobs.Holds v.queue j → j = v.index)
    (hfresh : ∀ n, (Artifact.signature n).Valid →
      w.store.blobs.contains (v.path (.signature n)) = false)
    (hversion : ∀ x ∈ signs, x.version = v)
    (hnames : ∀ x ∈ signs, ∃ a, Artifact.signature? x.signer = .ok a)
    (hsign : ∀ p addr k m t, ∃ sig : ByteArray, (ch (.sign p addr k m) t).1 = .ok sig)
    (i : Nat) (hi : i ≤ signs.length) :
    let W := fun j => Action.run ch s ((signs.take j).map .sign) w
    let b := (W i).store.blobs
    (∀ (j : Nat) (hj : j < signs.length), j < i →
      (exec (Lossy.answer Lossy.reliable) ch (sign signs[j]) (W j)).1 =
        .ok (.ok ⟨v, .signature signs[j].signer⟩)) ∧
    b.get? (v.path .unsigned) = some payload ∧ b.get? (v.path .signdata) = some m.encode ∧
    b.Tidy v.queue ∧ (∀ j, b.Holds v.queue j → j = v.index) ∧
    (∀ n, (Artifact.signature n).Valid →
      (b.contains (v.path (.signature n)) ↔
        ∃ (j : Nat) (hj : j < signs.length), j < i ∧ signs[j].signer = n)) ∧
    (∀ n d, (Artifact.signature n).Valid → b.get? (v.path (.signature n)) = some d →
      ∃ (j : Nat) (hj : j < signs.length), j < i ∧ signs[j].signer = n ∧
        (∀ (j' : Nat) (hj' : j' < signs.length), j < j' → j' < i → signs[j'].signer ≠ n) ∧
        (ch (.sign payload signs[j].multisigAddress signs[j].keyName m) (W j).chain).1 = .ok d) := by
  -- the invariant holds after every prefix of the signings, by induction on its length
  have hrun : SignedUpTo ch s v payload m signs w i := by
    induction i with
    | zero => exact .zero ch s hu hm htidy hholds hfresh
    | succ i ih =>
      have hx : signs[i] ∈ signs := List.getElem_mem hi
      obtain ⟨a, ha⟩ := hnames _ hx
      exact (ih (Nat.le_of_succ_le hi)).succ ch s hi (hversion _ hx) ha hsign
  exact ⟨hrun.signed, hrun.unsigned, hrun.signdata, hrun.tidy, hrun.holds, hrun.contains,
    hrun.last⟩

end Op

namespace Blobs

variable {b : Blobs} {v : Version}

theorem not_holds_of_under_eq_nil {q : Queue} (h : b.under q.pre = []) (i : UInt64) :
    ¬ b.Holds q i := by
  rintro ⟨a, ha⟩
  have hk : (q.version i).path a ∈ b.under q.pre :=
    mem_under.mpr ⟨mem_keys_iff_contains.mpr ha, Version.isPrefixOf_path_iff.mpr rfl⟩
  rw [h] at hk
  cases hk

theorem first_version_ready {q : Queue} (hempty : b.under q.pre = []) (payload md : ByteArray) :
    let b' := (b.put ((q.version 0).path .unsigned) payload).put ((q.version 0).path .signdata) md
    b'.get? ((q.version 0).path .unsigned) = some payload ∧
      b'.get? ((q.version 0).path .signdata) = some md ∧ b'.Tidy q ∧
      (∀ j, b'.Holds q j → j = 0) ∧
      ∀ n, (Artifact.signature n).Valid →
        b'.contains ((q.version 0).path (.signature n)) = false := by
  intro b'
  have hne {a a' : Artifact} (ha : a.Valid) (ha' : a'.Valid) (h : a ≠ a') :
      (q.version 0).path a ≠ (q.version 0).path a' :=
    fun hp => h (Version.path_injective _ ha ha' hp)
  have hnone := not_holds_of_under_eq_nil hempty
  refine ⟨?_, ?_, ?_, fun j hj => ?_, fun n hn => ?_⟩
  · rw [get?_put, if_neg (hne Artifact.valid_signdata Artifact.valid_unsigned (by simp)), get?_put,
      if_pos rfl]
  · rw [get?_put, if_pos rfl]
  · exact ((tidy_of_under_eq_nil hempty).put _ Artifact.valid_unsigned _).put _
      Artifact.valid_signdata _
  · rcases (holds_put _ _ _ j).mp hj with hj | hj
    · rcases (holds_put _ _ _ j).mp hj with hj | hj
      · exact absurd hj (hnone j)
      · exact (congrArg Version.index hj).symm
    · exact (congrArg Version.index hj).symm
  · have hold : b.contains ((q.version 0).path (.signature n)) = false := by
      by_contra hc
      exact hnone 0 ⟨_, by simpa using hc⟩
    simp [b', contains_put, hne Artifact.valid_signdata hn (by simp),
      hne Artifact.valid_unsigned hn (by simp), hold]

theorem mem_signatures_names_of_tidy (h : b.Tidy v.queue) {n : String} :
    n ∈ (b.signatures v).map Prod.fst ↔
      (Artifact.signature n).Valid ∧ b.contains (v.path (.signature n)) := by
  rw [mem_signatures_names]
  constructor
  · rintro ⟨k, hk, hfile⟩
    obtain rfl := Version.path_of_fileOf hfile
    have hc := mem_keys_iff_contains.mp (mem_under.mp hk).1
    obtain ⟨a, ha, hpath⟩ := h.valid_of_contains (i := v.index) hc
    have hpath' : v.path (.signature n) = v.path a := hpath
    have hread := Version.fileOf_path_valid v ha
    rw [← hpath', hfile] at hread
    cases hread
    exact ⟨ha, hc⟩
  · rintro ⟨hvalid, hc⟩
    exact ⟨_, mem_under.mpr ⟨mem_keys_iff_contains.mpr hc, Version.isPrefixOf_path_self v _⟩,
      Version.fileOf_path_valid v hvalid⟩

theorem broadcastChecks_only (htidy : b.Tidy v.queue)
    (hholds : ∀ j, b.Holds v.queue j → j = v.index) {payload : ByteArray} {m : Metadata}
    (hu : b.get? (v.path .unsigned) = some payload)
    (hm : b.get? (v.path .signdata) = some m.encode) {key node : String}
    (hkey : key.isEmpty = false) (hnode : node.isEmpty = false) (threshold : Nat)
    (cleanup : CleanupPolicy) :
    b.broadcastChecks ⟨v, key, some node, threshold, cleanup⟩ =
      if (b.signatures v).length < threshold then
        .error (.insufficientSignatures threshold (b.signatures v).length)
      else .ok () := by
  obtain ⟨V, hV, hmem⟩ := versions_of_tidy htidy
  obtain ⟨files, hfiles⟩ := files_of_tidy htidy v.index
  have hfiles' : b.files v = .ok files := hfiles
  have hold : ∀ oldest, V.min? = some oldest → ¬ oldest < v.index := by
    intro oldest hmin hlt
    rw [← head?_eq_min?_of_versions hV] at hmin
    rw [hholds oldest ((hmem oldest).mp (List.mem_of_mem_head? hmin))] at hlt
    exact UInt64.lt_irrefl _ hlt
  unfold broadcastChecks
  rcases hmin : V.min? with _ | oldest
  · by_cases hc : (b.signatures v).length < threshold <;>
      simp [hnode, hkey, hV, hmin, hfiles', hc, fetch_eq_ok.mpr hu, fetch_eq_ok.mpr hm,
        decodeMetadata, Metadata.decode_encode]
  · by_cases hc : (b.signatures v).length < threshold <;>
      simp [hnode, hkey, hV, hmin, hold oldest hmin, hfiles', hc, fetch_eq_ok.mpr hu,
        fetch_eq_ok.mpr hm, decodeMetadata, Metadata.decode_encode]

end Blobs

namespace Op

variable {τ : Type} (ch : ChainAnswer τ)

theorem exec_broadcast_only (s : Settings) {v : Version} {key node : String} (threshold : Nat)
    (w : Scene (Lossy Unit) τ) {payload : ByteArray} {m : Metadata}
    (hu : w.store.blobs.get? (v.path .unsigned) = some payload)
    (hm : w.store.blobs.get? (v.path .signdata) = some m.encode)
    (htidy : w.store.blobs.Tidy v.queue)
    (hholds : ∀ j, w.store.blobs.Holds v.queue j → j = v.index)
    (hkey : key.isEmpty = false) (hnode : node.isEmpty = false)
    (hagg : ∀ p k sigs m n t, ∃ signed : ByteArray, (ch (.aggregate p k sigs m n) t).1 = .ok signed)
    (hsubmit : ∀ signed n t, ∃ result : Outcome, (ch (.submit signed n) t).1 = .ok result) :
    let sigs := w.store.blobs.signatures v
    let run := exec (Lossy.answer Lossy.reliable) ch
      (broadcast s ⟨v, key, some node, threshold, .always⟩) w
    let sent := (run.2.log.drop w.log.length).filter (·.1.isChain)
    if threshold ≤ sigs.length then
      ∃ (signature : ByteArray) (result : Outcome),
        sent = [⟨.chain (.aggregate payload key sigs m (some node)), .ok signature⟩,
          ⟨.chain (.submit signature node), .ok result⟩] ∧
        run.1 = .ok (.ok ⟨result.code, result.txhash, true⟩) ∧
        run.2.store.blobs.under v.queue.pre = []
    else
      run.1 = .ok (.error (.insufficientSignatures threshold sigs.length)) ∧
        run.2.store = w.store := by
  obtain ⟨reads, hreads, hrun⟩ := exec_broadcast Lossy.reliable ch s
    ⟨v, key, some node, threshold, .always⟩ w
  have hchecks := Blobs.broadcastChecks_only htidy hholds hu hm hkey hnode threshold .always
  dsimp only
  split_ifs with hth
  · rw [hchecks, if_neg (Nat.not_lt.mpr hth)] at hrun
    obtain ⟨⟨pnode, files, ppay, pmeta, psigs⟩, hsends, hrun⟩ := hrun
    obtain ⟨⟨hpnode, -⟩, hfiles, hpay, ⟨d, hd, hdec⟩, hsigs, -⟩ := hsends
    dsimp only at hpnode hfiles hpay hd hdec hsigs
    cases hpnode
    rw [hu] at hpay
    cases hpay
    rw [hm] at hd
    cases hd
    rw [Metadata.decode_encode] at hdec
    cases hdec
    subst hsigs
    obtain ⟨signature, ha⟩ := hagg payload key (w.store.blobs.signatures v) m (some node) w.chain
    obtain ⟨result, hs⟩ := hsubmit signature node
      (ch (.aggregate payload key (w.store.blobs.signatures v) m (some node)) w.chain).2
    obtain ⟨w2, hstore2, hlog2, hrun2⟩ := exec_submitPrepared_of_submitted
      (w := { w with log := w.log ++ reads }) (s := s)
      (r := ⟨v, key, some node, threshold, .always⟩)
      (p := ⟨node, files, payload, m, w.store.blobs.signatures v⟩) ch (Lossy.answer Lossy.reliable)
      ha hs
    obtain ⟨removes, w3, hrun3, hremoves, hblobs3⟩ :=
      exec_settle_reliable ch s ⟨v, key, some node, threshold, .always⟩ files result w2
    obtain rfl : removes = true := hremoves.mpr (.inl rfl)
    obtain ⟨hnodup, hpresent⟩ := Blobs.paths_of_files hfiles
    obtain ⟨res, w', -, -, hrun', -, -, -, ⟨new, hlog', hnew⟩, -⟩ :=
      exec_settle Lossy.reliable ch s ⟨v, key, some node, threshold, .always⟩ files result w2
        (by rwa [hstore2]) hnodup
    rw [hrun3] at hrun'
    obtain ⟨-, rfl⟩ := Prod.mk.inj hrun'
    rw [hrun, hrun2, hrun3]
    refine ⟨signature, result, ?_, rfl, ?_⟩
    · simp [hlog', hlog2, filter_isChain_of_isRead hreads, filter_isChain_of_isRemoval hnew,
        Prepared.aggregation, List.filter_cons]
    · rw [hblobs3, if_pos rfl, hstore2]
      refine Blobs.under_eq_nil_of_tidy (htidy.foldl_erase _) fun i hi => ?_
      obtain rfl := hholds i hi.of_foldl_erase
      exact Blobs.not_holds_foldl_erase_files htidy hfiles hi
  · rw [hchecks, if_pos (Nat.lt_of_not_le hth)] at hrun
    rw [hrun]
    exact ⟨rfl, rfl⟩

/-- A transaction from publish to broadcast on a reliable memory store with nothing under its
queue, while the chain signs, combines and submits. A first publish with its numbers given and
no policy creates version 0 with the payload and the metadata of those numbers. Signing version 0
under names that signing accepts, in any order and with repetitions, succeeds each time. A
broadcast of version 0 that always removes it then fails with the count of distinct names when
that count is under the threshold, changing nothing; otherwise the broadcast combines the payload
and the published metadata with one signature for each distinct name, ascending by name, each the
chain's answer to the last signing under that name; it submits the result, reports the
submission with the version removed, and leaves nothing under the queue. -/
theorem publish_sign_broadcast (s : Settings) (r : PublishRequest) {account sequence : UInt64}
    (signs : List SignRequest) (key node : String) (threshold : Nat) (w : Scene (Lossy Unit) τ)
    (haccount : r.account = some account) (hsequence : r.sequence = some sequence)
    (hpolicy : r.policy = .refuse) (hempty : w.store.blobs.under r.queue.pre = [])
    (hversion : ∀ x ∈ signs, x.version = r.queue.version 0)
    (hnames : ∀ x ∈ signs, ∃ a, Artifact.signature? x.signer = .ok a)
    (hkey : key.isEmpty = false) (hnode : node.isEmpty = false)
    (hsign : ∀ p addr k m t, ∃ sig : ByteArray, (ch (.sign p addr k m) t).1 = .ok sig)
    (hagg : ∀ p k sigs m n t, ∃ signed : ByteArray, (ch (.aggregate p k sigs m n) t).1 = .ok signed)
    (hsubmit : ∀ signed n t, ∃ result : Outcome, (ch (.submit signed n) t).1 = .ok result) :
    let v := r.queue.version 0
    let m : Metadata := ⟨account, sequence, r.chainId, r.description⟩
    let published := exec (Lossy.answer Lossy.reliable) ch (publish s r) w
    let signed := fun i => Action.run ch s ((signs.take i).map .sign) published.2
    let final := signed signs.length
    let broadcasted := exec (Lossy.answer Lossy.reliable) ch
      (broadcast s ⟨v, key, some node, threshold, .always⟩) final
    let names := (signs.map (·.signer)).dedup
    let sent := (broadcasted.2.log.drop final.log.length).filter (·.1.isChain)
    published.1 = .ok (.ok ⟨v, m⟩) ∧
    (∀ (i : Nat) (hi : i < signs.length),
      (exec (Lossy.answer Lossy.reliable) ch (sign signs[i]) (signed i)).1 =
        .ok (.ok ⟨v, .signature signs[i].signer⟩)) ∧
    if threshold ≤ names.length then
      ∃ (sigs : List (String × ByteArray)) (signature : ByteArray) (result : Outcome),
        sent = [⟨.chain (.aggregate r.payload key sigs m (some node)), .ok signature⟩,
          ⟨.chain (.submit signature node), .ok result⟩] ∧
        broadcasted.1 = .ok (.ok ⟨result.code, result.txhash, true⟩) ∧
        (sigs.map Prod.fst).Pairwise (· < ·) ∧ (∀ n, n ∈ sigs.map Prod.fst ↔ n ∈ names) ∧
        (∀ x ∈ sigs, ∃ (i : Nat) (hi : i < signs.length), signs[i].signer = x.1 ∧
          (∀ (j : Nat) (hj : j < signs.length), i < j → signs[j].signer ≠ x.1) ∧
          (ch (.sign r.payload signs[i].multisigAddress signs[i].keyName m) (signed i).chain).1 =
            .ok x.2) ∧
        broadcasted.2.store.blobs.under r.queue.pre = []
    else
      broadcasted.1 = .ok (.error (.insufficientSignatures threshold names.length)) ∧
        broadcasted.2.store = final.store := by
  obtain ⟨w1, hpub, hblobs1, -⟩ := exec_publish_first ch s haccount hsequence hpolicy w hempty
  obtain ⟨hu, hm, htidy, hholds, hfresh⟩ := Blobs.first_version_ready hempty r.payload
    (Metadata.encode ⟨account, sequence, r.chainId, r.description⟩)
  rw [← hblobs1] at hu hm htidy hholds hfresh
  obtain ⟨hok, hu, hm, htidy, hholds, hcontains, hlast⟩ := signing_phase ch s (r.queue.version 0)
    r.payload ⟨account, sequence, r.chainId, r.description⟩ signs w1 hu hm htidy hholds hfresh
    hversion hnames hsign signs.length le_rfl
  have hb := exec_broadcast_only ch s threshold _ hu hm htidy hholds hkey hnode hagg hsubmit
  dsimp only at hok hu hm htidy hholds hcontains hlast hb ⊢
  rw [hpub]
  dsimp only
  generalize Action.run ch s ((signs.take signs.length).map .sign) w1 = wn
    at hu hm htidy hholds hcontains hlast hb ⊢
  have hmem : ∀ n, n ∈ (wn.store.blobs.signatures (r.queue.version 0)).map Prod.fst ↔
      n ∈ (signs.map (·.signer)).dedup := by
    intro n
    rw [Blobs.mem_signatures_names_of_tidy htidy, List.mem_dedup, List.mem_map]
    constructor
    · rintro ⟨hn, hc⟩
      obtain ⟨j, hj, -, rfl⟩ := (hcontains n hn).mp hc
      exact ⟨signs[j], List.getElem_mem hj, rfl⟩
    · rintro ⟨x, hx, rfl⟩
      obtain ⟨a, ha⟩ := hnames x hx
      have hn : (Artifact.signature x.signer).Valid :=
        Artifact.eq_signature_of_signature? ha ▸ Artifact.valid_of_signature? ha
      obtain ⟨j, hj, rfl⟩ := List.getElem_of_mem hx
      exact ⟨hn, (hcontains _ hn).mpr ⟨j, hj, hj, rfl⟩⟩
  have hlen : (wn.store.blobs.signatures (r.queue.version 0)).length =
      (signs.map (·.signer)).dedup.length := by
    have hnodup : ((wn.store.blobs.signatures (r.queue.version 0)).map Prod.fst).Nodup :=
      (Blobs.signatures_ascending _).imp ne_of_lt
    rw [← List.length_map (f := Prod.fst)]
    exact ((List.perm_ext_iff_of_nodup hnodup (List.nodup_dedup _)).mpr hmem).length_eq
  refine ⟨rfl, fun i hi => hok i hi hi, ?_⟩
  rw [← hlen]
  split_ifs with hth
  · rw [if_pos hth] at hb
    obtain ⟨signature, result, hsent, hrun, hunder⟩ := hb
    refine ⟨_, signature, result, hsent, hrun, Blobs.signatures_ascending _, hmem,
      fun x hx => ?_, hunder⟩
    -- each signature found is the chain's answer to the last signing under its name
    have hn : (Artifact.signature x.1).Valid :=
      ((Blobs.mem_signatures_names_of_tidy htidy).mp (List.mem_map_of_mem hx)).1
    obtain ⟨j, hj, -, hjn, hlater, hout⟩ :=
      hlast x.1 x.2 hn (Blobs.get?_of_mem_signatures hx)
    exact ⟨j, hj, hjn, fun j' hj' hjj' => hlater j' hj' hjj' hj', hout⟩
  · rw [if_neg hth] at hb
    exact hb

end Op

namespace Sample

/-- A signing of the first version of `c/k` by the local key `ledger`, stored under `signer`. -/
def signingAs (signer : String) : SignRequest :=
  ⟨pendingQueue.version 0, "ledger", signer, "cosmos1multi"⟩

def aliceBobAlice : List SignRequest := [signingAs "alice", signingAs "bob", signingAs "alice"]

end Sample

namespace Op

/-- Publishing version 0 of the empty queue `c/k`, signing it as Alice, Bob and Alice again, and
broadcasting it with threshold 2: the publish succeeds, and the broadcast combines one signature
for each of Alice and Bob, in that order, reports the submission with the version removed, and
leaves nothing under the queue. -/
theorem publish_sign_broadcast_alice_bob_alice :
    let published := exec (Lossy.answer Lossy.reliable) Sample.chain
      (publish Sample.settings (Sample.pinned .refuse 7)) Sample.emptyWorld
    let final := Action.run Sample.chain Sample.settings (Sample.aliceBobAlice.map .sign)
      published.2
    let broadcasted := exec (Lossy.answer Lossy.reliable) Sample.chain
      (broadcast Sample.settings ⟨Sample.pendingQueue.version 0, "val-multi", some "node", 2,
        .always⟩) final
    published.1 = .ok (.ok ⟨Sample.pendingQueue.version 0, ⟨5, 7, "c-1", ""⟩⟩) ∧
      ∃ (sigs : List (String × ByteArray)) (result : Outcome),
        sigs.map Prod.fst = ["alice", "bob"] ∧
        broadcasted.1 = .ok (.ok ⟨result.code, result.txhash, true⟩) ∧
        broadcasted.2.store.blobs.under Sample.pendingQueue.pre = [] := by
  have hsigners : ∀ x ∈ Sample.aliceBobAlice, x.signer = "alice" ∨ x.signer = "bob" := by
    simp [Sample.aliceBobAlice, Sample.signingAs]
  obtain ⟨hpub, -, hrest⟩ := publish_sign_broadcast Sample.chain Sample.settings
    (Sample.pinned .refuse 7) Sample.aliceBobAlice "val-multi" "node" 2 Sample.emptyWorld
    (rfl : (Sample.pinned .refuse 7).account = some 5)
    (rfl : (Sample.pinned .refuse 7).sequence = some 7) rfl (by decide +kernel)
    (by simp [Sample.aliceBobAlice, Sample.signingAs, Sample.pinned])
    (fun x hx => by
      rcases hsigners x hx with h | h <;> rw [h]
      exacts [⟨.signature "alice", by decide +kernel⟩, ⟨.signature "bob", by decide +kernel⟩])
    (by decide) (by decide) (fun _ _ _ _ _ => ⟨_, rfl⟩) (fun _ _ _ _ _ _ => ⟨_, rfl⟩)
    (fun _ _ _ => ⟨_, rfl⟩)
  rw [if_pos (by decide +kernel)] at hrest
  obtain ⟨sigs, -, result, -, hrun, hasc, hmem, -, hunder⟩ := hrest
  refine ⟨hpub, sigs, result, hasc.eq_of_mem_iff (by decide) fun n => ?_, hrun, hunder⟩
  rw [hmem]
  simp [Sample.aliceBobAlice, Sample.signingAs, or_comm]

end Op

end Quorum
