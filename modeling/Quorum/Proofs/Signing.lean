import Quorum.Proofs.Reachable

/-!
# What a signature writes

A signature reads the payload and the metadata of a version and checks the signer's name, asking
the store only reads; once all three pass it asks the signer, once, and writes what the signer
returned at the signer's path in the version (`Op.exec_sign_cases`). On a memory store whose
writes may fail, a signature therefore either returns having written exactly that object, or fails
having changed nothing (`Op.exec_sign_effect`).

A signature's path is never the path of a payload or of metadata, and it adds its own file to its
own version only (`Blobs.files_put`). Over a run of signatures (`Op.signEach`) the payload and the
metadata of every version stay as they were, and the signature files of a version gain exactly
the names of the signatures on it that returned.
-/

namespace Quorum

namespace Lossy

variable {ρ : Type}

theorem answer_put (fate : StoreCall → ρ → Fate × ρ) (p : String) (d : ByteArray) (s : Lossy ρ) :
    (∃ e, (answer fate (.put p d) s).1 = .error e ∧ (answer fate (.put p d) s).2.blobs = s.blobs) ∨
      ((answer fate (.put p d) s).1 = .ok () ∧
        (answer fate (.put p d) s).2.blobs = s.blobs.put p d) := by
  simp only [answer]
  rcases fate (.put p d) s.env with ⟨_ | e | _, env⟩
  · exact .inr ⟨rfl, rfl⟩
  · exact .inl ⟨e, rfl, rfl⟩
  · exact .inr ⟨rfl, rfl⟩

end Lossy

/-- A signature request is ready on the objects `b` when the version's payload is stored, its
metadata is stored and decodes, and signing accepts the signer's name; the signer is then asked
about `payload` and `m`. -/
def SignRequest.Ready (r : SignRequest) (b : Blobs) (payload : ByteArray) (m : Metadata) : Prop :=
  b.get? (r.version.path .unsigned) = some payload ∧
    (∃ d, b.get? (r.version.path .signdata) = some d ∧ Metadata.decode d = .ok m) ∧
    ∃ a, Artifact.signature? r.signer = .ok a

theorem mem_signerNames {files : List Artifact} {n : String} :
    n ∈ signerNames files ↔ Artifact.signature n ∈ files := by
  simp only [signerNames, List.mem_filterMap]
  constructor
  · rintro ⟨a, ha, hn⟩
    cases a <;> simp_all
  · exact fun h => ⟨_, h, rfl⟩

namespace Contents

theorem signers_foldl_add (files : List Artifact) (c : Contents) :
    (files.foldl add c).signers = c.signers ++ signerNames files := by
  induction files generalizing c with
  | nil => simp [signerNames]
  | cons a files ih =>
    rw [List.foldl_cons, ih]
    cases a <;> simp [add, signerNames]

theorem mem_signers_ofFiles {files : List Artifact} {n : String} :
    n ∈ (ofFiles files).signers ↔ Artifact.signature n ∈ files := by
  simp only [ofFiles, sortSigners, List.mem_mergeSort, signers_foldl_add, List.nil_append,
    mem_signerNames]

theorem signers_ofFiles_ascending {b : Blobs} {v : Version} {files : List Artifact}
    (h : b.files v = .ok files) : (ofFiles files).signers.Pairwise (· < ·) := by
  have hasc : (signerNames files).Pairwise (· < ·) := by
    rw [Blobs.signerNames_of_files h]
    exact Blobs.signatures_ascending v
  simp only [ofFiles, sortSigners, signers_foldl_add, List.nil_append]
  rw [List.mergeSort_eq_self (· ≤ ·) (hasc.imp le_of_lt)]
  exact hasc

end Contents

namespace Blobs

theorem files_put {b : Blobs} {v u : Version} {files : List Artifact} {a : Artifact}
    (h : b.files v = .ok files) (ha : a.Valid) (d : ByteArray) :
    ∃ files', (b.put (u.path a) d).files v = .ok files' ∧
      ∀ x, x ∈ files' ↔ x ∈ files ∨ (u = v ∧ x = a) := by
  -- a key under the prefix is an old one, or the new one when it is in `v`
  have hunder : ∀ k, k ∈ (b.put (u.path a) d).under v.pre ↔
      (k = u.path a ∧ u = v) ∨ k ∈ b.under v.pre := by
    intro k
    rw [mem_under, mem_under, mem_keys_put]
    constructor
    · rintro ⟨rfl | hk, hpre⟩
      · exact .inl ⟨rfl, Version.eq_of_isPrefixOf_path hpre⟩
      · exact .inr ⟨hk, hpre⟩
    · rintro (⟨rfl, rfl⟩ | ⟨hk, hpre⟩)
      · exact ⟨.inl rfl, Version.isPrefixOf_path_self _ _⟩
      · exact ⟨.inr hk, hpre⟩
  have hnew : u = v → v.artifactOf (u.path a) = .ok (some a) := by
    rintro rfl
    simp [Version.artifactOf, Version.fileOf_path_valid _ ha]
  obtain ⟨files', hfiles'⟩ : ∃ files', (b.put (u.path a) d).files v = .ok files' :=
    collect_isOk _ _ [] (firstFault_eq_none fun k hk => by
      rcases (hunder k).mp hk with ⟨rfl, huv⟩ | hk
      · exact ⟨_, hnew huv⟩
      · exact collect_ok_of_mem _ h hk)
  refine ⟨files', hfiles', fun x => ?_⟩
  rw [(collect_eq_ok _ _ hfiles' List.Pairwise.nil).2 x, (collect_eq_ok _ _ h List.Pairwise.nil).2 x]
  simp only [List.not_mem_nil, false_or]
  constructor
  · rintro ⟨k, hk, hkx⟩
    rcases (hunder k).mp hk with ⟨rfl, huv⟩ | hk
    · rw [hnew huv] at hkx
      cases hkx
      exact .inr ⟨huv, rfl⟩
    · exact .inl ⟨k, hk, hkx⟩
  · rintro (⟨k, hk, hkx⟩ | ⟨rfl, rfl⟩)
    · exact ⟨k, (hunder k).mpr (.inr hk), hkx⟩
    · exact ⟨_, (hunder _).mpr (.inl ⟨rfl, rfl⟩), hnew rfl⟩

end Blobs

namespace Op

variable {ρ τ β : Type} (fate : StoreCall → ρ → Fate × ρ) (ch : ChainAnswer τ)

theorem exec_put_pure (p : String) (d : ByteArray) (x : β) (w : Scene (Lossy ρ) τ) :
    exec (Lossy.answer fate) ch (do store (.put p d); pure x) w =
      (.ok (((Lossy.answer fate (.put p d) w.store).1.mapError StoreError.toFault).map fun _ => x),
        { w with store := (Lossy.answer fate (.put p d) w.store).2,
                 log := w.log ++ [⟨.store (.put p d), (Lossy.answer fate (.put p d) w.store).1⟩] }) := by
  erw [exec_bind, exec_store]
  cases (Lossy.answer fate (.put p d) w.store).1 <;> rfl

theorem exec_sign_cases (r : SignRequest) (w : Scene (Lossy ρ) τ) :
    ∃ reads : List Answered, (∀ e ∈ reads, e.1.isRead) ∧
      (((¬ ∃ payload m, r.Ready w.store.blobs payload m) ∧
          ∃ e, exec (Lossy.answer fate) ch (sign r) w =
            (.ok (.error e), { w with log := w.log ++ reads })) ∨
      ∃ payload m, r.Ready w.store.blobs payload m ∧
        exec (Lossy.answer fate) ch (sign r) w =
          exec (Lossy.answer fate) ch (do
            let sig ← chain (.sign payload r.multisigAddress r.keyName m)
            store (.put (r.version.path (.signature r.signer)) sig)
            pure (ObjectPath.mk r.version (.signature r.signer))) { w with log := w.log ++ reads }) := by
  obtain ⟨reads, hreads, hprep⟩ := readsOnly_prepareSign r.version ρ τ fate ch w
  refine ⟨reads, hreads, ?_⟩
  unfold sign
  cases hb : w.store.blobs.prepareSign r.version with
  | error e =>
    simp only [hb] at hprep
    refine .inl ⟨?_, e, exec_bind_error _ _ hprep⟩
    rintro ⟨payload, m, hu, ⟨d, hd, hm⟩, -⟩
    have hok : w.store.blobs.prepareSign r.version = .ok ⟨r.version, payload, m⟩ := by
      simp [Blobs.prepareSign, Blobs.fetch_eq_ok.mpr hu, Blobs.fetch_eq_ok.mpr hd,
        Blobs.decodeMetadata, hm]
    rw [hb] at hok
    cases hok
  | ok bundle =>
    rcases bundle with ⟨bv, payload, m⟩
    obtain ⟨hv, hu, d, hd, hm⟩ := Blobs.prepareSign_eq_ok hb
    dsimp only at hv hu hd hm
    subst hv
    simp only [hb] at hprep
    rw [exec_bind_ok _ _ hprep]
    unfold completeSign
    cases ha : Artifact.signature? r.signer with
    | error e =>
      refine .inl ⟨?_, .classification e.message, rfl⟩
      rintro ⟨-, -, -, -, a, ha'⟩
      rw [ha] at ha'
      cases ha'
    | ok a =>
      obtain rfl := Artifact.eq_signature_of_signature? ha
      refine .inr ⟨payload, m, ⟨hu, ⟨d, hd, hm⟩, _, ha⟩, ?_⟩
      rw [exec_bind_ok _ _ (exec_pure _ _ _ _)]
      rfl

theorem exec_sign_effect (r : SignRequest) (w : Scene (Lossy ρ) τ) :
    let run := exec (Lossy.answer fate) ch (sign r) w
    let b := w.store.blobs
    let sent := (run.2.log.drop w.log.length).filter (·.1.isChain)
    ((¬ ∃ payload m, r.Ready b payload m) ∧ sent = [] ∨
      ∃ payload m reply, r.Ready b payload m ∧
        sent = [⟨.chain (.sign payload r.multisigAddress r.keyName m), reply⟩]) ∧
    match run.1 with
    | .ok (.ok path) => path = ⟨r.version, .signature r.signer⟩ ∧
        ∃ (payload : ByteArray) (m : Metadata) (sig : ByteArray), r.Ready b payload m ∧
          sent = [⟨.chain (.sign payload r.multisigAddress r.keyName m), .ok sig⟩] ∧
          run.2.store.blobs = b.put (r.version.path (.signature r.signer)) sig
    | .ok (.error _) => run.2.store.blobs = b
    | .error _ => False := by
  intro run b sent
  obtain ⟨reads, hreads, hcases⟩ := exec_sign_cases fate ch r w
  have hquiet := filter_isChain_of_isRead hreads
  rcases hcases with ⟨hnot, e, hrun⟩ | ⟨payload, m, hready, hrun⟩
  · -- a check fails, and only reads were made
    have hsent : sent = [] := by simp [sent, run, hrun, hquiet]
    refine ⟨.inl ⟨hnot, hsent⟩, ?_⟩
    simp only [run, hrun]
    rfl
  · -- the signer is asked, and its reply decides the rest
    cases hc : (ch (.sign payload r.multisigAddress r.keyName m) w.chain).1 with
    | error e =>
      rw [exec_chain_bind_error (w := { w with log := w.log ++ reads }) _ _ hc] at hrun
      have hsent : sent = [⟨.chain (.sign payload r.multisigAddress r.keyName m), .error e⟩] := by
        simp only [sent, run, hrun, List.append_assoc, List.drop_left, List.filter_append, hquiet,
          List.filter_cons, Request.isChain_chain, if_true, List.filter_nil, List.nil_append]
      refine ⟨.inr ⟨payload, m, _, hready, hsent⟩, ?_⟩
      simp only [run, hrun]
      rfl
    | ok sig =>
      rw [exec_chain_bind_ok (w := { w with log := w.log ++ reads }) _ _ hc] at hrun
      erw [exec_put_pure] at hrun
      have hsent : sent = [⟨.chain (.sign payload r.multisigAddress r.keyName m), .ok sig⟩] := by
        simp only [sent, run, hrun, List.append_assoc, List.drop_left, List.filter_append, hquiet,
          List.filter_cons, Request.isChain_chain, Request.isChain_store, if_true, List.filter_nil,
          List.nil_append, List.cons_append, Bool.false_eq_true, if_false]
      refine ⟨.inr ⟨payload, m, _, hready, hsent⟩, ?_⟩
      rcases Lossy.answer_put fate (r.version.path (.signature r.signer)) sig w.store with
        ⟨e, he, hblobs⟩ | ⟨hok, hblobs⟩
      · simp only [run, hrun, he]
        exact hblobs
      · simp only [run, hrun, hok]
        exact ⟨rfl, payload, m, sig, hready, hsent, hblobs⟩

theorem exec_sign_blobs (r : SignRequest) (w : Scene (Lossy ρ) τ) :
    match (exec (Lossy.answer fate) ch (sign r) w).1 with
    | .ok (.ok _) => (Artifact.signature r.signer).Valid ∧ ∃ sig,
        (exec (Lossy.answer fate) ch (sign r) w).2.store.blobs =
          w.store.blobs.put (r.version.path (.signature r.signer)) sig
    | _ => (exec (Lossy.answer fate) ch (sign r) w).2.store.blobs = w.store.blobs := by
  have h := (exec_sign_effect fate ch r w).2
  rcases hres : (exec (Lossy.answer fate) ch (sign r) w).1 with d | e | p
  · simp only [hres] at h
  · simpa only [hres] using h
  · simp only [hres] at h ⊢
    obtain ⟨-, payload, m, sig, ⟨-, -, a, ha⟩, -, hblobs⟩ := h
    have hvalid := Artifact.valid_of_signature? ha
    rw [Artifact.eq_signature_of_signature? ha] at hvalid
    exact ⟨hvalid, sig, hblobs⟩

/-- Signs with each request in turn, whatever each signing returns: the world afterwards, and the
requests whose signing returned, in order. -/
def signEach : List SignRequest → Scene (Lossy ρ) τ → Scene (Lossy ρ) τ × List SignRequest
  | [], w => (w, [])
  | r :: rs, w =>
    let run := exec (Lossy.answer fate) ch (sign r) w
    let rest := signEach rs run.2
    (rest.1, match run.1 with
      | .ok (.ok _) => r :: rest.2
      | _ => rest.2)

theorem get?_signEach {a : Artifact} (ha : a.Valid) (hs : a.isSignature = false) (u : Version)
    (signs : List SignRequest) (w : Scene (Lossy ρ) τ) :
    (signEach fate ch signs w).1.store.blobs.get? (u.path a) = w.store.blobs.get? (u.path a) := by
  induction signs generalizing w with
  | nil => rfl
  | cons r rs ih =>
    have hb := exec_sign_blobs fate ch r w
    simp only [signEach]
    rw [ih]
    rcases hres : (exec (Lossy.answer fate) ch (sign r) w).1 with d | e | p <;>
      simp only [hres] at hb
    case ok.ok =>
      obtain ⟨hvalid, sig, hblobs⟩ := hb
      rw [hblobs, Blobs.get?_put_of_ne (Version.path_signature_ne hvalid ha hs)]
    all_goals rw [hb]

theorem files_signEach (v : Version) (signs : List SignRequest) (w : Scene (Lossy ρ) τ)
    {files₀ : List Artifact} (h : w.store.blobs.files v = .ok files₀) :
    ∃ files, (signEach fate ch signs w).1.store.blobs.files v = .ok files ∧
      ∀ n, Artifact.signature n ∈ files ↔ Artifact.signature n ∈ files₀ ∨
        ∃ r ∈ (signEach fate ch signs w).2, r.version = v ∧ r.signer = n := by
  induction signs generalizing w files₀ with
  | nil => exact ⟨files₀, h, fun n => by simp [signEach]⟩
  | cons r rs ih =>
    have hb := exec_sign_blobs fate ch r w
    rcases hres : (exec (Lossy.answer fate) ch (sign r) w).1 with d | e | p <;>
      simp only [hres] at hb
    case ok.ok =>
      obtain ⟨hvalid, sig, hblobs⟩ := hb
      obtain ⟨files₁, hfiles₁, hmem₁⟩ := Blobs.files_put (u := r.version) h hvalid sig
      rw [← hblobs] at hfiles₁
      obtain ⟨files, hfiles, hmem⟩ := ih _ hfiles₁
      refine ⟨files, by simpa only [signEach] using hfiles, fun n => ?_⟩
      simp only [signEach, hres, hmem n, hmem₁, Artifact.signature.injEq, List.mem_cons]
      constructor
      · rintro ((h₀ | ⟨hv, rfl⟩) | ⟨r', hr', hv', hn'⟩)
        · exact .inl h₀
        · exact .inr ⟨r, .inl rfl, hv, rfl⟩
        · exact .inr ⟨r', .inr hr', hv', hn'⟩
      · rintro (h₀ | ⟨r', rfl | hr', hv', hn'⟩)
        · exact .inl (.inl h₀)
        · exact .inl (.inr ⟨hv', hn'.symm⟩)
        · exact .inr ⟨r', hr', hv', hn'⟩
    all_goals
      rw [← hb] at h
      obtain ⟨files, hfiles, hmem⟩ := ih _ h
      exact ⟨files, by simpa only [signEach] using hfiles, by simpa only [signEach, hres] using hmem⟩

theorem versionContents_eq_ok {v : Version} {w : Scene (Lossy ρ) τ} {c : Contents}
    (h : (exec (Lossy.answer fate) ch (versionContents v) w).1 = .ok (.ok c)) :
    ∃ files, w.store.blobs.files v = .ok files ∧ c = Contents.ofFiles files := by
  cases hf : w.store.blobs.files v with
  | error e =>
    rw [versionContents, exec_bind_error _ _ ((exec_listFiles fate ch v w).trans (by rw [hf]))] at h
    cases h
  | ok files =>
    rw [exec_versionContents hf] at h
    cases h
    exact ⟨files, rfl, rfl⟩

/-- A signature writes one signature artifact or nothing. On a memory store whose writes may
fail, it asks the signer at most once, and exactly when the version's payload is stored, its
metadata is stored and decodes, and signing accepts the signer's name, passing the stored payload
and the decoded metadata. When it returns, the store has gained the signer's output at the
signer's path in the version and changed nowhere else; when it fails, no object has changed.

Over any run of signatures, the payload and the metadata of every version stay as they were, and
the signers that the contents of a version report are those reported before together with the
names of the signatures on the version that returned, each once. -/
theorem sign_writes_one_signature_or_nothing :
    (∀ (r : SignRequest) (w : Scene (Lossy ρ) τ),
      let run := exec (Lossy.answer fate) ch (sign r) w
      let b := w.store.blobs
      let sent := (run.2.log.drop w.log.length).filter (·.1.isChain)
      ((¬ ∃ payload m, r.Ready b payload m) ∧ sent = [] ∨
        ∃ payload m reply, r.Ready b payload m ∧
          sent = [⟨.chain (.sign payload r.multisigAddress r.keyName m), reply⟩]) ∧
      match run.1 with
      | .ok (.ok path) => path = ⟨r.version, .signature r.signer⟩ ∧
          ∃ (payload : ByteArray) (m : Metadata) (sig : ByteArray), r.Ready b payload m ∧
            sent = [⟨.chain (.sign payload r.multisigAddress r.keyName m), .ok sig⟩] ∧
            run.2.store.blobs = b.put (r.version.path (.signature r.signer)) sig
      | .ok (.error _) => run.2.store.blobs = b
      | .error _ => False) ∧
    ∀ (signs : List SignRequest) (w : Scene (Lossy ρ) τ),
      let final := signEach fate ch signs w
      (∀ u : Version,
        final.1.store.blobs.get? (u.path .unsigned) = w.store.blobs.get? (u.path .unsigned) ∧
        final.1.store.blobs.get? (u.path .signdata) = w.store.blobs.get? (u.path .signdata)) ∧
      ∀ (v : Version) (c₀ : Contents),
        (exec (Lossy.answer fate) ch (versionContents v) w).1 = .ok (.ok c₀) →
        ∃ c, (exec (Lossy.answer fate) ch (versionContents v) final.1).1 = .ok (.ok c) ∧
          c.signers.Pairwise (· < ·) ∧
          ∀ n, n ∈ c.signers ↔ n ∈ c₀.signers ∨ ∃ r ∈ final.2, r.version = v ∧ r.signer = n := by
  refine ⟨exec_sign_effect fate ch, fun signs w => ⟨fun u => ⟨?_, ?_⟩, fun v c₀ h₀ => ?_⟩⟩
  · exact get?_signEach fate ch Artifact.valid_unsigned rfl u signs w
  · exact get?_signEach fate ch Artifact.valid_signdata rfl u signs w
  · obtain ⟨files₀, hfiles₀, rfl⟩ := versionContents_eq_ok fate ch h₀
    obtain ⟨files, hfiles, hmem⟩ := files_signEach fate ch v signs w hfiles₀
    refine ⟨Contents.ofFiles files, exec_versionContents hfiles,
      Contents.signers_ofFiles_ascending hfiles, fun n => ?_⟩
    rw [Contents.mem_signers_ofFiles, Contents.mem_signers_ofFiles, hmem n]

end Op

end Quorum
