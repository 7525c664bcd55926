import Quorum.Proofs.Lifecycle
import Quorum.Coordinate.Delete

/-!
# The states a coordinator's store reaches

A coordinator writes only the payload, the metadata and the signatures of versions, each at its
own path, and otherwise removes objects. Starting from an empty memory store, whatever it is asked
to publish, sign, broadcast or delete and whatever the chain answers, every object key therefore
reads back as an artifact of a version, and the listings that classify keys never meet a key that
fits no version. A memory store takes every write, so versions are also written whole: a version
that holds an object holds its payload and metadata that decode, and each of its other objects is
the signature of a signer that was asked to sign it.

The invariant is `Blobs.WellFormed`. Each kind of call keeps it (`Blobs.WellFormed.publish`,
`Blobs.WellFormed.sign`, `Blobs.WellFormed.removeFiles`), hence every run (`Call.wellFormed_run`),
and `Call.reachable_store_well_formed` reads its consequences off the state that a run from an
empty store reaches.
-/

namespace Quorum

/-- A call of the coordinator on its store: one of the actions, or the deletion of a version. -/
inductive Call where
  | action (a : Action)
  | delete (v : Version)

namespace Call

variable {τ : Type} (ch : ChainAnswer τ) (s : Settings)

def step : Call → Scene (Lossy Unit) τ → Scene (Lossy Unit) τ
  | .action a, w => Action.step ch s a w
  | .delete v, w => (Op.exec (Lossy.answer Lossy.reliable) ch (Op.delete s v) w).2

def run : List Call → Scene (Lossy Unit) τ → Scene (Lossy Unit) τ
  | [], w => w
  | c :: cs, w => run cs (step ch s c w)

def Signs (calls : List Call) (v : Version) (n : String) : Prop :=
  ∃ r : SignRequest, action (.sign r) ∈ calls ∧ r.version = v ∧ r.signer = n

end Call

theorem Version.eq_of_path_eq {v w : Version} {a a' : Artifact} (h : v.path a = w.path a') :
    v = w :=
  (Version.eq_of_isPrefixOf_path (h ▸ Version.isPrefixOf_path_self v a)).symm

theorem Version.path_signature_ne {v w : Version} {n : String} (hn : (Artifact.signature n).Valid)
    {a : Artifact} (ha : a.Valid) (hreserved : a.isSignature = false) :
    v.path (.signature n) ≠ w.path a := by
  intro h
  obtain rfl := Version.eq_of_path_eq h
  obtain rfl := Version.path_injective v hn ha h
  cases hreserved

theorem Artifact.signature?_of_valid {n : String} (h : (Artifact.signature n).Valid) :
    Artifact.signature? n = .ok (.signature n) := by
  obtain ⟨hcomp, hname⟩ := h
  simp only [Artifact.name] at hcomp hname
  simp [Artifact.signature?, checkComponent, hcomp, hname]

namespace Blobs

variable {b : Blobs} {k k' : String} {d : ByteArray}

theorem contains_put_of_ne (h : k ≠ k') : (b.put k d).contains k' = b.contains k' := by
  rw [contains_put, beq_eq_false_iff_ne.mpr h, Bool.false_or]

theorem get?_put_of_ne (h : k ≠ k') : (b.put k d).get? k' = b.get? k' := by
  rw [get?_put, if_neg h]

theorem mem_keys_put : k' ∈ (b.put k d).keys ↔ k' = k ∨ k' ∈ b.keys := by
  rw [mem_keys_iff_contains, mem_keys_iff_contains, contains_put]
  by_cases h : k = k'
  · subst h
    simp
  · simp [h, Ne.symm h]

theorem contains_of_contains_foldl_erase {ks : List String}
    (h : (ks.foldl erase b).contains k = true) : b.contains k = true := by
  by_contra hk
  rw [contains_foldl_erase_eq_false (.inr (by simpa using hk))] at h
  cases h

theorem get?_foldl_erase_ite {ks : List String} :
    (ks.foldl erase b).get? k = if k ∈ ks then none else b.get? k := by
  induction ks generalizing b with
  | nil => simp
  | cons k' ks ih =>
    rw [List.foldl_cons, ih, get?_erase]
    by_cases hk : k ∈ ks
    · simp [hk]
    · by_cases hk' : k' = k
      · simp [hk']
      · simp [hk, hk', Ne.symm hk']

theorem get?_foldl_erase {ks : List String} (hk : k ∉ ks) :
    (ks.foldl erase b).get? k = b.get? k := by
  rw [get?_foldl_erase_ite, if_neg hk]

/-- The objects of a store as a coordinator leaves them. -/
structure WellFormed (signed : Version → String → Prop) (b : Blobs) : Prop where
  classified : ∀ k ∈ b.keys, ∃ (v : Version) (a : Artifact), a.Valid ∧ k = v.path a
  complete : ∀ (v : Version) (a : Artifact), a.Valid → b.contains (v.path a) = true →
    b.contains (v.path .unsigned) = true ∧
      ∃ m : Metadata, b.get? (v.path .signdata) = some m.encode
  signed : ∀ (v : Version) (n : String), (Artifact.signature n).Valid →
    b.contains (v.path (.signature n)) = true → signed v n

variable {P Q : Version → String → Prop}

theorem wellFormed_empty : empty.WellFormed P where
  classified k hk := by simp [keys, empty] at hk
  complete v a _ h := by simp [contains, empty] at h
  signed v n _ h := by simp [contains, empty] at h

theorem WellFormed.mono (h : b.WellFormed P) (hPQ : ∀ v n, P v n → Q v n) : b.WellFormed Q :=
  ⟨h.classified, h.complete, fun v n hn hc => hPQ v n (h.signed v n hn hc)⟩

theorem WellFormed.tidy (h : b.WellFormed P) (q : Queue) : b.Tidy q := by
  intro k hk
  obtain ⟨hkeys, hpre⟩ := mem_under.mp hk
  obtain ⟨v, a, ha, rfl⟩ := h.classified k hkeys
  obtain rfl := Version.isPrefixOf_path_iff.mp hpre
  exact ⟨v.index, a, ha, rfl⟩

theorem WellFormed.parse (h : b.WellFormed P) (hk : k ∈ b.keys) :
    ∃ p : ObjectPath, ObjectPath.parse k = .ok (some p) ∧ p.render = k := by
  obtain ⟨v, a, ha, rfl⟩ := h.classified k hk
  exact ⟨⟨v, a⟩, ObjectPath.parse_path v ha, rfl⟩

theorem WellFormed.removeFiles (h : b.WellFormed P) {v : Version} {files : List Artifact}
    (hfiles : b.files v = .ok files) : ((files.map v.path).foldl erase b).WellFormed P := by
  have hother : ∀ {u : Version} (x : Artifact), u ≠ v → u.path x ∉ files.map v.path := by
    intro u x hu hx
    obtain ⟨y, -, hy⟩ := List.mem_map.mp hx
    exact hu (Version.eq_of_path_eq hy).symm
  refine ⟨fun k hk => ?_, fun u a ha hc => ?_, fun u n hn hc => ?_⟩
  · exact h.classified k (mem_keys_iff_contains.mpr
      (contains_of_contains_foldl_erase (mem_keys_iff_contains.mp hk)))
  · by_cases hu : u = v
    · -- the version itself is left with nothing
      subst hu
      exact absurd ⟨a, hc⟩ (not_holds_foldl_erase_files (h.tidy u.queue) (i := u.index) hfiles)
    · obtain ⟨hpayload, m, hm⟩ := h.complete u a ha (contains_of_contains_foldl_erase hc)
      exact ⟨by rwa [contains_foldl_erase (hother _ hu)], m,
        by rwa [get?_foldl_erase (hother _ hu)]⟩
  · exact h.signed u n hn (contains_of_contains_foldl_erase hc)

theorem WellFormed.publish (h : b.WellFormed P) {v : Version} {stale : List String}
    (hstale : ∀ p ∈ stale, v.pre.isPrefixOf p) (payload : ByteArray) (m : Metadata) :
    (((stale.foldl erase b).put (v.path .unsigned) payload).put (v.path .signdata)
      m.encode).WellFormed P := by
  -- the objects of every other version are neither removed nor written
  have hget : ∀ {u : Version} (x : Artifact), u ≠ v →
      (((stale.foldl erase b).put (v.path .unsigned) payload).put (v.path .signdata)
        m.encode).get? (u.path x) = b.get? (u.path x) := by
    intro u x hu
    have hstale' : u.path x ∉ stale := fun hx => hu (Version.eq_of_isPrefixOf_path (hstale _ hx))
    rw [get?_put_of_ne fun he => hu (Version.eq_of_path_eq he).symm,
      get?_put_of_ne fun he => hu (Version.eq_of_path_eq he).symm, get?_foldl_erase hstale']
  have hcontains : ∀ {u : Version} (x : Artifact), u ≠ v →
      (((stale.foldl erase b).put (v.path .unsigned) payload).put (v.path .signdata)
        m.encode).contains (u.path x) = b.contains (u.path x) := fun x hu => by
    rw [contains_eq_isSome, contains_eq_isSome, hget x hu]
  refine ⟨fun k hk => ?_, fun u a ha hc => ?_, fun u n hn hc => ?_⟩
  · rcases mem_keys_put.mp hk with rfl | hk
    · exact ⟨v, .signdata, Artifact.valid_signdata, rfl⟩
    rcases mem_keys_put.mp hk with rfl | hk
    · exact ⟨v, .unsigned, Artifact.valid_unsigned, rfl⟩
    exact h.classified k (mem_keys_iff_contains.mpr
      (contains_of_contains_foldl_erase (mem_keys_iff_contains.mp hk)))
  · by_cases hu : u = v
    · -- the version written now holds both
      subst hu
      exact ⟨by simp [contains_put], m, by simp⟩
    · obtain ⟨hpayload, m', hm'⟩ := h.complete u a ha ((hcontains a hu).symm.trans hc)
      exact ⟨(hcontains _ hu).trans hpayload, m', (hget _ hu).trans hm'⟩
  · -- a signature is neither of the two objects written
    rw [contains_put_of_ne (Version.path_signature_ne hn Artifact.valid_signdata rfl).symm,
      contains_put_of_ne (Version.path_signature_ne hn Artifact.valid_unsigned rfl).symm] at hc
    exact h.signed u n hn (contains_of_contains_foldl_erase hc)

theorem WellFormed.sign (h : b.WellFormed P) {v : Version} {n : String}
    (hn : (Artifact.signature n).Valid) (hpayload : b.contains (v.path .unsigned) = true)
    (d : ByteArray) :
    (b.put (v.path (.signature n)) d).WellFormed fun u n' => P u n' ∨ u = v ∧ n' = n := by
  have hunsigned : ∀ u : Version, v.path (.signature n) ≠ u.path .unsigned :=
    fun _ => Version.path_signature_ne hn Artifact.valid_unsigned rfl
  have hsigndata : ∀ u : Version, v.path (.signature n) ≠ u.path .signdata :=
    fun _ => Version.path_signature_ne hn Artifact.valid_signdata rfl
  refine ⟨fun k hk => ?_, fun u a ha hc => ?_, fun u n' hn' hc => ?_⟩
  · rcases mem_keys_put.mp hk with rfl | hk
    · exact ⟨v, _, hn, rfl⟩
    · exact h.classified k hk
  · -- the version holds its payload: it did before, or it is the version signed
    have hold : b.contains (u.path .unsigned) = true := by
      by_cases hk : v.path (.signature n) = u.path a
      · rw [← Version.eq_of_path_eq hk]
        exact hpayload
      · exact (h.complete u a ha (by rwa [contains_put_of_ne hk] at hc)).1
    obtain ⟨-, m, hm⟩ := h.complete u .unsigned Artifact.valid_unsigned hold
    exact ⟨by rw [contains_put_of_ne (hunsigned u)]; exact hold, m,
      by rw [get?_put_of_ne (hsigndata u)]; exact hm⟩
  · by_cases hk : v.path (.signature n) = u.path (.signature n')
    · obtain rfl := Version.eq_of_path_eq hk
      obtain ⟨⟩ := Version.path_injective v hn hn' hk
      exact .inr ⟨rfl, rfl⟩
    · exact .inl (h.signed u n' hn' (by rwa [contains_put_of_ne hk] at hc))

end Blobs

namespace Listing

theorem unrecognized_foldl_addKey_eq (keys : List String) (l : Listing) :
    (keys.foldl addKey l).unrecognized =
      l.unrecognized ++ keys.filter fun k => !(ObjectPath.parse k).isOk := by
  induction keys generalizing l with
  | nil => simp
  | cons k ks ih =>
    rw [List.foldl_cons, ih, List.filter_cons]
    unfold addKey
    rcases ObjectPath.parse k with e | (_ | p) <;> simp [Except.toBool]

theorem unrecognized_foldl_addKey {keys : List String}
    (h : ∀ k ∈ keys, ∃ p, ObjectPath.parse k = .ok p) (l : Listing) :
    (keys.foldl addKey l).unrecognized = l.unrecognized := by
  rw [unrecognized_foldl_addKey_eq, List.filter_eq_nil_iff.mpr fun k hk => ?_, List.append_nil]
  obtain ⟨p, hp⟩ := h k hk
  simp [hp, Except.toBool]

theorem unrecognized_ofKeys {keys : List String}
    (h : ∀ k ∈ keys, ∃ p, ObjectPath.parse k = .ok p) :
    (ofKeys keys).unrecognized = [] :=
  unrecognized_foldl_addKey h _

end Listing

namespace Op

variable {ρ τ : Type} (fate : StoreCall → ρ → Fate × ρ) (ch : ChainAnswer τ)

theorem exec_listEverything (w : Scene (Lossy ρ) τ) :
    exec (Lossy.answer fate) ch listEverything w =
      (.ok (.ok (Listing.ofKeys w.store.blobs.keys)),
        { w with log := w.log ++ [⟨.store .listAll, .ok w.store.blobs.keys⟩] }) :=
  rfl

variable {fate ch}

theorem exec_versionContents {v : Version} {w : Scene (Lossy ρ) τ} {files : List Artifact}
    (h : w.store.blobs.files v = .ok files) :
    (exec (Lossy.answer fate) ch (versionContents v) w).1 = .ok (.ok (Contents.ofFiles files)) := by
  rw [versionContents, exec_bind_ok _ _ ((exec_listFiles fate ch v w).trans (by rw [h]))]
  rfl

variable (ch)

theorem delete_effect (s : Settings) (v : Version) (w : Scene (Lossy Unit) τ) :
    let w' := (exec (Lossy.answer Lossy.reliable) ch (delete s v) w).2
    w'.store.blobs = w.store.blobs ∨
      ∃ files, w.store.blobs.files v = .ok files ∧
        w'.store.blobs = (files.map v.path).foldl Blobs.erase w.store.blobs := by
  dsimp only
  have hlist := exec_listFiles Lossy.reliable ch v w
  unfold delete
  cases hf : w.store.blobs.files v with
  | error e =>
    rw [hf] at hlist
    rw [exec_bind_error _ _ hlist]
    exact .inl rfl
  | ok files =>
    rw [hf] at hlist
    refine .inr ⟨files, rfl, ?_⟩
    rw [exec_bind_ok _ _ hlist]
    cases files with
    | nil => rfl
    | cons a rest =>
      obtain ⟨w2, hrun2, hblobs2⟩ := exec_removeAll_reliable ch s v.pre ((a :: rest).map v.path)
        { w with
          log := w.log ++ [⟨.store (.listPrefix v.pre), .ok (w.store.blobs.under v.pre)⟩] }
      simp only [List.isEmpty_cons, Bool.false_eq_true, ↓reduceIte]
      rw [exec_bind_ok _ _ hrun2]
      exact hblobs2

end Op

namespace Call

variable {τ : Type} (ch : ChainAnswer τ) (s : Settings)

theorem wellFormed_step (done : List Call) (c : Call) (w : Scene (Lossy Unit) τ)
    (h : w.store.blobs.WellFormed (Signs done)) :
    (step ch s c w).store.blobs.WellFormed (Signs (done ++ [c])) := by
  have hdone : ∀ v n, Signs done v n → Signs (done ++ [c]) v n :=
    fun v n ⟨r, hr, hv, hn⟩ => ⟨r, List.mem_append_left _ hr, hv, hn⟩
  cases c with
  | action a =>
    cases a with
    | publish r =>
      refine Blobs.WellFormed.mono ?_ hdone
      rcases Op.publish_effect ch s r w with hkeep | ⟨V, v, stale, m, -, -, -, hstale, hw⟩
      · exact hkeep ▸ h
      · exact hw ▸ h.publish hstale r.payload m
    | sign r =>
      rcases Op.sign_effect ch r w with hkeep | ⟨a, d, hsig, hpayload, hw⟩
      · exact (hkeep ▸ h).mono hdone
      · obtain rfl := Artifact.eq_signature_of_signature? hsig
        have hsigned := h.sign (Artifact.valid_of_signature? hsig)
          (by rwa [Blobs.contains_eq_isSome]) d
        refine (hw ▸ hsigned).mono ?_
        rintro v n (hs | ⟨rfl, rfl⟩)
        · exact hdone v n hs
        · exact ⟨r, by simp, rfl, rfl⟩
    | broadcast r =>
      refine Blobs.WellFormed.mono ?_ hdone
      rcases Op.broadcast_effect ch s r w with hkeep | ⟨files, -, hfiles, hw⟩
      · exact hkeep ▸ h
      · exact hw ▸ h.removeFiles hfiles
  | delete v =>
    refine Blobs.WellFormed.mono ?_ hdone
    rcases Op.delete_effect ch s v w with hkeep | ⟨files, hfiles, hw⟩
    · exact hkeep ▸ h
    · exact hw ▸ h.removeFiles hfiles

theorem wellFormed_run (calls done : List Call) (w : Scene (Lossy Unit) τ)
    (h : w.store.blobs.WellFormed (Signs done)) :
    (run ch s calls w).store.blobs.WellFormed (Signs (done ++ calls)) := by
  induction calls generalizing done w with
  | nil => simpa [run] using h
  | cons c cs ih =>
    have hrest := ih (done ++ [c]) _ (wellFormed_step ch s done c w h)
    rwa [List.append_assoc, List.singleton_append] at hrest

/-- Starting from an empty memory store, after any publishes, signatures, broadcasts and deletions,
whatever the chain answers: every key reads back as an artifact of a version; listing the versions
of a queue, the files or the contents of a version, and everything, finds no key that fits no
version; and every version that holds an object holds its payload and metadata that decode, its
other objects being signatures under names accepted for signers that were asked to sign it. -/
theorem reachable_store_well_formed (calls : List Call) (w : Scene (Lossy Unit) τ) :
    let final := run ch s calls { w with store := ⟨(), Blobs.empty⟩ }
    let b := final.store.blobs
    (∀ k ∈ b.keys, ∃ p : ObjectPath, ObjectPath.parse k = .ok (some p) ∧ p.render = k) ∧
    (∀ q : Queue, ∃ V,
      (Op.exec (Lossy.answer Lossy.reliable) ch (Op.listVersions q) final).1 = .ok (.ok V)) ∧
    (∀ v : Version, ∃ files,
      (Op.exec (Lossy.answer Lossy.reliable) ch (Op.listFiles v) final).1 = .ok (.ok files)) ∧
    (∀ v : Version, ∃ c,
      (Op.exec (Lossy.answer Lossy.reliable) ch (Op.versionContents v) final).1 = .ok (.ok c)) ∧
    (∃ l : Listing, (Op.exec (Lossy.answer Lossy.reliable) ch Op.listEverything final).1 =
      .ok (.ok l) ∧ l.unrecognized = []) ∧
    ∀ k ∈ b.keys, ∀ p : ObjectPath, ObjectPath.parse k = .ok (some p) →
      (b.get? (p.version.path .unsigned)).isSome ∧
      (∃ d m, b.get? (p.version.path .signdata) = some d ∧ Metadata.decode d = .ok m) ∧
      (p.artifact = .unsigned ∨ p.artifact = .signdata ∨
        ∃ r : SignRequest, action (.sign r) ∈ calls ∧ r.version = p.version ∧
          Artifact.signature? r.signer = .ok p.artifact) := by
  intro final b
  have h : b.WellFormed (Signs calls) := by
    have hrun := wellFormed_run ch s calls [] { w with store := ⟨(), Blobs.empty⟩ }
      Blobs.wellFormed_empty
    rwa [List.nil_append] at hrun
  have hfiles : ∀ v : Version, ∃ files, b.files v = .ok files :=
    fun v => Blobs.files_of_tidy (h.tidy v.queue) v.index
  refine ⟨fun k hk => h.parse hk, fun q => ?_, fun v => ?_, fun v => ?_, ?_, ?_⟩
  · obtain ⟨V, hV, -⟩ := Blobs.versions_of_tidy (h.tidy q)
    exact ⟨V, by rw [Op.exec_listVersions, hV]⟩
  · obtain ⟨files, hv⟩ := hfiles v
    exact ⟨files, by rw [Op.exec_listFiles, hv]⟩
  · obtain ⟨files, hv⟩ := hfiles v
    exact ⟨_, Op.exec_versionContents hv⟩
  · refine ⟨_, by rw [Op.exec_listEverything], Listing.unrecognized_ofKeys fun k hk => ?_⟩
    obtain ⟨p, hp, -⟩ := h.parse hk
    exact ⟨_, hp⟩
  · intro k hk p hp
    obtain ⟨v, a, ha, rfl⟩ := h.classified k hk
    rw [ObjectPath.parse_path v ha] at hp
    obtain rfl := Option.some.inj (Except.ok.inj hp)
    have hc : b.contains (v.path a) = true := Blobs.mem_keys_iff_contains.mp hk
    obtain ⟨hpayload, m, hm⟩ := h.complete v a ha hc
    refine ⟨Blobs.contains_eq_isSome ▸ hpayload, ⟨_, m, hm, Metadata.decode_encode m⟩, ?_⟩
    cases a with
    | unsigned => exact .inl rfl
    | signdata => exact .inr (.inl rfl)
    | signature n =>
      obtain ⟨r, hr, rfl, rfl⟩ := h.signed v n ha hc
      exact .inr (.inr ⟨r, hr, rfl, Artifact.signature?_of_valid ha⟩)

end Call

end Quorum
