import Quorum.Proofs.Directories
import Quorum.Proofs.Signing

/-!
# The full listing of the store

The diagnostic listing reads every key of the store once, in order: a key that does not read is
set aside, a marker is passed over, and any other key adds its artifact to the entry of its
version, the entries kept ascending by version (`Listing.lookup_foldl_addKey`). Listing one
version instead reads the keys under the version's prefix and collects their artifacts once each,
in artifact order. The keys under a version's prefix that read as artifacts are the keys that read
as artifacts of that version (`Version.artifactOf_eq_some_iff`), so both find the same artifacts
(`Blobs.perm_artifactsOf`), and what a version holds does not depend on the order its artifacts
come in (`Contents.sortSigners_foldl_add_perm`). So the full listing sets aside exactly the keys
that do not read, and holds each version that holds anything, with exactly its contents
(`Op.listEverything_agrees_with_versionContents`).
-/

namespace Quorum

theorem Version.compare_self (v : Version) : v.compare v = .eq := Std.ReflCmp.compare_self

theorem Artifact.compare_self (a : Artifact) : a.compare a = .eq := Std.ReflCmp.compare_self

namespace Contents

theorem hasPayload_foldl_add (files : List Artifact) (c : Contents) :
    (files.foldl add c).hasPayload = (c.hasPayload || decide (.unsigned ∈ files)) := by
  induction files generalizing c with
  | nil => simp
  | cons a files ih =>
    rw [List.foldl_cons, ih]
    cases a <;> simp [add]

theorem hasMetadata_foldl_add (files : List Artifact) (c : Contents) :
    (files.foldl add c).hasMetadata = (c.hasMetadata || decide (.signdata ∈ files)) := by
  induction files generalizing c with
  | nil => simp
  | cons a files ih =>
    rw [List.foldl_cons, ih]
    cases a <;> simp [add]

theorem sortSigners_foldl_add_perm {l₁ l₂ : List Artifact} (h : l₁.Perm l₂) :
    (l₁.foldl add {}).sortSigners = (l₂.foldl add {}).sortSigners := by
  -- the signer names are sorted from lists that are permutations of each other
  have hsigners : (signerNames l₁).mergeSort (fun a b => decide (a ≤ b)) =
      (signerNames l₂).mergeSort (fun a b => decide (a ≤ b)) :=
    ((List.mergeSort_perm _ _).trans ((h.filterMap _).trans (List.mergeSort_perm _ _).symm)).eq_of_pairwise'
      (List.pairwise_mergeSort' (· ≤ ·) _) (List.pairwise_mergeSort' (· ≤ ·) _)
  simp only [sortSigners, hasPayload_foldl_add, hasMetadata_foldl_add, signers_foldl_add,
    List.nil_append, h.mem_iff, hsigners]

theorem ofFiles_eq_empty_iff {files : List Artifact} : ofFiles files = {} ↔ files = [] := by
  constructor
  · intro h
    refine List.eq_nil_iff_forall_not_mem.mpr fun a ha => ?_
    cases a with
    | unsigned =>
      have hp := congrArg hasPayload h
      simp [ofFiles, sortSigners, hasPayload_foldl_add, ha] at hp
    | signdata =>
      have hm := congrArg hasMetadata h
      simp [ofFiles, sortSigners, hasMetadata_foldl_add, ha] at hm
    | signature n =>
      have hn := mem_signers_ofFiles.mpr ha
      rw [h] at hn
      cases hn
  · rintro rfl
    simp [ofFiles, sortSigners]

/-- The entry of a version with one more artifact; a version without an entry starts empty. -/
def addTo (o : Option Contents) (a : Artifact) : Option Contents :=
  some ((o.getD {}).add a)

theorem foldl_addTo_some (as : List Artifact) (c : Contents) :
    as.foldl addTo (some c) = some (as.foldl add c) := by
  induction as generalizing c with
  | nil => rfl
  | cons a as ih => exact ih (c.add a)

theorem foldl_addTo_cons (a : Artifact) (as : List Artifact) (o : Option Contents) :
    (a :: as).foldl addTo o = some ((a :: as).foldl add (o.getD {})) :=
  foldl_addTo_some as ((o.getD {}).add a)

end Contents

/-- The artifact that a key gives the version `v`: the one it reads as, when it reads as an
artifact of `v`. -/
def ObjectPath.artifactFor (v : Version) (k : String) : Option Artifact :=
  match ObjectPath.parse k with
  | .ok (some p) => if p.version = v then some p.artifact else none
  | _ => none

theorem ObjectPath.artifactFor_eq_some {v : Version} {k : String} {a : Artifact} :
    artifactFor v k = some a ↔ parse k = .ok (some ⟨v, a⟩) := by
  unfold artifactFor
  rcases parse k with e | (_ | ⟨w, b⟩)
  · simp
  · simp
  · by_cases hw : w = v
    · subst hw
      simp
    · simp [hw]

namespace Listing

theorem lookup_eq_none_of_lt {w v : Version} {c : Contents} {rest : List (Version × Contents)}
    (h : Ascending ((w, c) :: rest)) (hvw : v.compare w = .lt) :
    ((w, c) :: rest).lookup v = none := by
  refine List.lookup_eq_none_iff.mpr fun p hp => bne_iff_ne.mpr fun hv => ?_
  have hlt : v.compare p.1 = .lt := by
    rcases List.mem_cons.mp hp with rfl | hp
    · exact hvw
    · exact Std.TransCmp.lt_trans hvw
        (List.rel_of_pairwise_cons h (List.mem_map_of_mem (f := Prod.fst) hp))
  rw [hv, Version.compare_self] at hlt
  cases hlt

theorem lookup_cons_of_ne {u w : Version} {c : Contents} {rest : List (Version × Contents)}
    (h : u ≠ w) : ((w, c) :: rest).lookup u = rest.lookup u := by
  rw [List.lookup_cons, beq_eq_false_iff_ne.mpr h]

theorem lookup_addArtifact {vs : List (Version × Contents)} (h : Ascending vs) (v u : Version)
    (a : Artifact) :
    (addArtifact v a vs).lookup u =
      if u = v then some (((vs.lookup v).getD {}).add a) else vs.lookup u := by
  induction vs with
  | nil =>
    by_cases hu : u = v
    · subst hu
      simp [addArtifact]
    · simp [addArtifact, lookup_cons_of_ne hu, hu]
  | cons e rest ih =>
    obtain ⟨w, c⟩ := e
    have hrest : Ascending rest := (List.pairwise_cons.mp h).2
    simp only [addArtifact]
    cases hvw : v.compare w with
    | lt =>
      by_cases hu : u = v
      · subst hu
        rw [List.lookup_cons_self, lookup_eq_none_of_lt h hvw, if_pos rfl]
        rfl
      · rw [lookup_cons_of_ne hu, if_neg hu]
    | eq =>
      obtain rfl := Std.LawfulEqCmp.eq_of_compare hvw
      by_cases hu : u = v
      · subst hu
        simp
      · rw [lookup_cons_of_ne hu, if_neg hu, lookup_cons_of_ne hu]
    | gt =>
      have hne : v ≠ w := fun hv => by
        rw [hv, Version.compare_self] at hvw
        cases hvw
      by_cases hu : u = w
      · subst hu
        rw [List.lookup_cons_self, if_neg (Ne.symm hne), List.lookup_cons_self]
      · rw [lookup_cons_of_ne hu, ih hrest, lookup_cons_of_ne hne, lookup_cons_of_ne hu]

theorem mem_iff_lookup {vs : List (Version × Contents)} (h : Ascending vs) {u : Version}
    {c : Contents} : (u, c) ∈ vs ↔ vs.lookup u = some c := by
  induction vs with
  | nil => simp
  | cons e rest ih =>
    obtain ⟨w, d⟩ := e
    obtain ⟨hw, hrest⟩ := List.pairwise_cons.mp h
    by_cases hu : u = w
    · subst hu
      have hnot : (u, c) ∉ rest := fun hmem => by
        have hlt := hw u (List.mem_map_of_mem (f := Prod.fst) hmem)
        rw [Version.compare_self] at hlt
        cases hlt
      simp [hnot, eq_comm]
    · rw [lookup_cons_of_ne hu, ← ih hrest]
      simp [hu]

theorem lookup_addKey (l : Listing) (k : String) (u : Version) :
    (l.addKey k).versions.lookup u =
      (ObjectPath.artifactFor u k).toList.foldl Contents.addTo (l.versions.lookup u) := by
  unfold Listing.addKey ObjectPath.artifactFor
  rcases ObjectPath.parse k with e | (_ | p)
  · rfl
  · rfl
  · dsimp only
    rw [lookup_addArtifact l.ascending]
    by_cases hu : p.version = u
    · subst hu
      simp [Contents.addTo]
    · simp [hu, Ne.symm hu]

theorem lookup_foldl_addKey (keys : List String) (l : Listing) (u : Version) :
    (keys.foldl Listing.addKey l).versions.lookup u =
      (keys.filterMap (ObjectPath.artifactFor u)).foldl Contents.addTo (l.versions.lookup u) := by
  induction keys generalizing l with
  | nil => rfl
  | cons k ks ih =>
    rw [List.foldl_cons, ih, lookup_addKey, List.filterMap_cons]
    cases ObjectPath.artifactFor u k <;> rfl

theorem mem_versions_ofKeys (keys : List String) (u : Version) (c : Contents) :
    (u, c) ∈ (ofKeys keys).versions ↔
      keys.filterMap (ObjectPath.artifactFor u) ≠ [] ∧
        c = ((keys.filterMap (ObjectPath.artifactFor u)).foldl Contents.add {}).sortSigners := by
  have hasc := (keys.foldl addKey empty).ascending
  have hlookup : (keys.foldl addKey empty).versions.lookup u =
      (keys.filterMap (ObjectPath.artifactFor u)).foldl Contents.addTo none :=
    lookup_foldl_addKey keys empty u
  simp only [ofKeys, List.mem_map, Prod.exists, Prod.mk.injEq]
  constructor
  · rintro ⟨w, d, hmem, rfl, rfl⟩
    rw [mem_iff_lookup hasc, hlookup] at hmem
    cases has : keys.filterMap (ObjectPath.artifactFor w) with
    | nil => simp [has] at hmem
    | cons a as =>
      rw [has, Contents.foldl_addTo_cons] at hmem
      cases hmem
      exact ⟨List.cons_ne_nil a as, rfl⟩
  · rintro ⟨hne, rfl⟩
    obtain ⟨a, as, has⟩ := List.exists_cons_of_ne_nil hne
    refine ⟨u, _, ?_, rfl, rfl⟩
    rw [mem_iff_lookup hasc, hlookup, has, Contents.foldl_addTo_cons]
    rfl

end Listing

theorem Version.artifactOf_eq_some_iff {v : Version} {k : String} {a : Artifact}
    (h : v.pre.isPrefixOf k) :
    v.artifactOf k = .ok (some a) ↔ ObjectPath.parse k = .ok (some ⟨v, a⟩) := by
  unfold Version.artifactOf
  rw [Version.fileOf_of_isPrefixOf h]
  rcases hp : ObjectPath.parse k with e | (_ | p)
  · simp [Except.map]
  · simp [Except.map]
  · -- the key is the path of what it reads as, so it lies under that version's prefix
    have hv : p.version = v := by
      have hkey := ObjectPath.render_of_parse hp
      rw [ObjectPath.render] at hkey
      exact Version.eq_of_isPrefixOf_path (hkey ▸ h)
    obtain ⟨w, b⟩ := p
    dsimp only at hv
    subst hv
    simp [Except.map]

namespace Blobs

variable {b : Blobs}

theorem perm_artifactsOf {v : Version} {files : List Artifact} (h : b.files v = .ok files) :
    files.Perm (b.keys.filterMap (ObjectPath.artifactFor v)) := by
  have hnodup : files.Nodup := (files_ascending h).imp fun hlt heq => by
    subst heq
    rw [Artifact.compare_self] at hlt
    cases hlt
  -- two keys that give the version one artifact read as one path, so they are one key
  have hnodup' : (b.keys.filterMap (ObjectPath.artifactFor v)).Nodup := by
    refine List.Nodup.filterMap (fun k k' a hk hk' => ?_) (b.keys_ascending.imp ne_of_lt)
    exact ObjectPath.eq_of_parse_eq (ObjectPath.artifactFor_eq_some.mp hk)
      (ObjectPath.artifactFor_eq_some.mp hk')
  refine (List.perm_ext_iff_of_nodup hnodup hnodup').mpr fun a => ?_
  rw [(collect_eq_ok v.artifactOf (b.under v.pre) h List.Pairwise.nil).2 a, List.mem_filterMap]
  simp only [List.not_mem_nil, false_or, ObjectPath.artifactFor_eq_some]
  constructor
  · rintro ⟨k, hk, hka⟩
    obtain ⟨hkeys, hpre⟩ := mem_under.mp hk
    exact ⟨k, hkeys, (Version.artifactOf_eq_some_iff hpre).mp hka⟩
  · rintro ⟨k, hkeys, hka⟩
    have hpre : v.pre.isPrefixOf k := by
      rw [← ObjectPath.render_of_parse hka]
      exact Version.isPrefixOf_path_self v a
    exact ⟨k, mem_under.mpr ⟨hkeys, hpre⟩, (Version.artifactOf_eq_some_iff hpre).mpr hka⟩

end Blobs

namespace Op

variable {ρ τ : Type} (fate : StoreCall → ρ → Fate × ρ) (ch : ChainAnswer τ)

/-- The diagnostic listing of a memory store agrees with the view of each version, whatever
becomes of writes. It sets aside exactly the keys of the store that do not read as an object path,
in the order the store lists them; its versions ascend, each once; and for every version whose
contents can be listed, it holds the version exactly when the version holds something, and then
with exactly those contents: the same payload and metadata flags and the same sorted signers. -/
theorem listEverything_agrees_with_versionContents (w : Scene (Lossy ρ) τ) :
    ∃ L, (exec (Lossy.answer fate) ch listEverything w).1 = .ok (.ok L) ∧
      L.unrecognized = w.store.blobs.keys.filter (fun k => !(ObjectPath.parse k).isOk) ∧
      Listing.Ascending L.versions ∧
      ∀ v c, (exec (Lossy.answer fate) ch (versionContents v) w).1 = .ok (.ok c) →
        ∀ c', (v, c') ∈ L.versions ↔ c ≠ {} ∧ c' = c := by
  refine ⟨_, by rw [exec_listEverything], Listing.unrecognized_foldl_addKey_eq _ _, ?_,
    fun v c hc c' => ?_⟩
  · exact (Listing.ofKeys _).ascending
  obtain ⟨files, hfiles, rfl⟩ := versionContents_eq_ok fate ch hc
  have hperm := Blobs.perm_artifactsOf hfiles
  have hnil : w.store.blobs.keys.filterMap (ObjectPath.artifactFor v) = [] ↔ files = [] := by
    rw [← List.length_eq_zero_iff, ← hperm.length_eq, List.length_eq_zero_iff]
  rw [Listing.mem_versions_ofKeys, ← Contents.sortSigners_foldl_add_perm hperm, ne_eq, ne_eq,
    hnil, Contents.ofFiles_eq_empty_iff]
  exact Iff.rfl

end Op

end Quorum
