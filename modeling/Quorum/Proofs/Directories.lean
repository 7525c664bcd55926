import Quorum.Proofs.Encoding
import Quorum.Proofs.Interleaving

/-!
# The versions of a queue and the files of each

Listing a queue reads every key under its prefix. A directory marker, or a key directly under the
prefix, belongs to no version; any other key lies in the directory named by its first segment
(`Queue.InDirectory`), and that name must be the decimal text of an index
(`Queue.versionOf_of_inDirectory`). So the listing fails exactly when some directory is named by no
index, and otherwise finds the indices of the directories that hold a key.

Listing a version reads the keys under its prefix, which are the keys of its directory, and finds
an artifact in each of them but a marker. So a version is among the versions of its queue exactly
when listing its files fails or finds one: no version is pending with nothing to remove
(`Op.listings_agree_with_store`). The files found are the valid artifacts whose paths hold an
object; an artifact with a reserved or malformed name is never found, even when its path holds one
(`Op.reserved_signature_unlisted`).
-/

namespace Quorum

theorem endsInSlash_of_toList_eq_append {k rest : String} {p : List Char}
    (hk : k.toList = p ++ rest.toList) (hrest : rest.toList ≠ []) :
    endsInSlash k = endsInSlash rest := by
  unfold endsInSlash
  rw [hk, List.getLast?_append_of_ne_nil _ hrest]

namespace Queue

/-- The key lies in the directory named `seg` under the queue and is no directory marker: it is
the queue's prefix, then `seg`, which holds no `/`, then `/` and more, and it does not end in `/`.
These are the keys under the prefix that are neither markers nor loose, `seg` being their first
segment. -/
def InDirectory (q : Queue) (seg : List Char) (k : String) : Prop :=
  '/' ∉ seg ∧ (∃ more, k.toList = q.pre.toList ++ seg ++ '/' :: more) ∧ endsInSlash k = false

variable {q : Queue} {seg seg' : List Char} {k : String}

theorem InDirectory.isPrefixOf (h : q.InDirectory seg k) : q.pre.isPrefixOf k := by
  obtain ⟨-, ⟨more, hk⟩, -⟩ := h
  rw [isPrefixOf_iff, hk, List.append_assoc]
  exact List.prefix_append _ _

theorem InDirectory.unique (h : q.InDirectory seg k) (h' : q.InDirectory seg' k) : seg = seg' := by
  obtain ⟨hs, ⟨more, hk⟩, -⟩ := h
  obtain ⟨hs', ⟨more', hk'⟩, -⟩ := h'
  rw [hk, List.append_assoc, List.append_assoc] at hk'
  have hsplit := congrArg (List.splitOn '/') (List.append_cancel_left hk')
  rw [List.splitOn_append_cons_self_of_not_mem hs,
    List.splitOn_append_cons_self_of_not_mem hs'] at hsplit
  exact (List.cons.inj hsplit).1

theorem versionOf_of_inDirectory (h : q.InDirectory seg k) :
    q.versionOf k = match parseIndex k (String.ofList seg) with
      | .ok i => .ok (some i)
      | .error e => .error (.classification e.message) := by
  obtain ⟨hs, ⟨more, hk⟩, hend⟩ := h
  have hk' : k.toList = q.pre.toList ++ (String.ofList (seg ++ '/' :: more)).toList := by
    rw [hk, String.toList_ofList, List.append_assoc]
  have hstrip : stripPrefix? k q.pre = some (String.ofList (seg ++ '/' :: more)) := by
    rw [stripPrefix?, if_pos (List.isPrefixOf_iff_prefix.mpr ⟨_, hk'.symm⟩), hk',
      String.length, List.drop_left, String.ofList_toList]
  have hrest : (String.ofList (seg ++ '/' :: more)).toList ≠ [] := by simp
  have hmarker : ((String.ofList (seg ++ '/' :: more)).isEmpty ||
      endsInSlash (String.ofList (seg ++ '/' :: more))) = false := by
    rw [← endsInSlash_of_toList_eq_append hk' hrest, hend]
    simp
  obtain ⟨x, xs, hmore⟩ := List.exists_cons_of_ne_nil (List.splitOn_ne_nil '/' more)
  unfold versionOf placement
  rw [hstrip]
  dsimp only
  rw [hmarker, if_neg Bool.false_ne_true, String.toList_ofList,
    List.splitOn_append_cons_self_of_not_mem hs, hmore]
  dsimp only
  cases parseIndex k (String.ofList seg) <;> rfl

theorem versionOf_of_not_inDirectory (hpre : q.pre.isPrefixOf k) (h : ∀ seg, ¬ q.InDirectory seg k) :
    q.versionOf k = .ok none := by
  have hstrip : stripPrefix? k q.pre = some (String.ofList (k.toList.drop q.pre.length)) := by
    rw [stripPrefix?, if_pos (List.isPrefixOf_iff_prefix.mpr (isPrefixOf_iff.mp hpre))]
  have hk := toList_of_stripPrefix? hstrip
  generalize String.ofList (k.toList.drop q.pre.length) = rest at hstrip hk
  unfold versionOf placement
  rw [hstrip]
  dsimp only
  by_cases hm : (rest.isEmpty || endsInSlash rest) = true
  · rw [if_pos hm]
  rw [if_neg hm]
  obtain ⟨hne, hend⟩ : rest.isEmpty = false ∧ endsInSlash rest = false := by simpa using hm
  by_cases hslash : '/' ∈ rest.toList
  · -- the text after the prefix has a first segment, so the key lies in a directory
    obtain ⟨seg, more, hrest, hs⟩ := List.eq_append_cons_of_mem hslash
    have hnil : rest.toList ≠ [] := by simp [hrest]
    refine absurd ⟨hs, ⟨more, by rw [hk, hrest, List.append_assoc]⟩, ?_⟩ (h seg)
    rw [endsInSlash_of_toList_eq_append hk hnil, hend]
  · rw [List.splitOn_eq_singleton hslash]

theorem inDirectory_indexText_iff {i : UInt64} :
    q.InDirectory (indexText i).toList k ↔
      (q.version i).pre.isPrefixOf k ∧ endsInSlash k = false := by
  have hpre : (q.version i).pre.toList = q.pre.toList ++ (indexText i).toList ++ ['/'] := by
    rw [toList_pre_eq_queue, List.append_assoc]
    rfl
  constructor
  · rintro ⟨-, ⟨more, hk⟩, hend⟩
    refine ⟨isPrefixOf_iff.mpr ⟨more, ?_⟩, hend⟩
    rw [hk, hpre]
    simp
  · rintro ⟨hunder, hend⟩
    obtain ⟨more, hk⟩ := isPrefixOf_iff.mp hunder
    refine ⟨slash_not_mem_indexText i, ⟨more, ?_⟩, hend⟩
    rw [← hk, hpre]
    simp

end Queue

theorem parseIndex_ofList_eq_ok {key : String} {seg : List Char} {i : UInt64} :
    parseIndex key (String.ofList seg) = .ok i ↔ (indexText i).toList = seg := by
  constructor
  · intro h
    rw [indexText_of_parseIndex h, String.toList_ofList]
  · intro h
    rw [← h, String.ofList_toList, parseIndex_indexText]

theorem Queue.versionOf_eq_ok_some_iff {q : Queue} {k : String} (hpre : q.pre.isPrefixOf k)
    {i : UInt64} : q.versionOf k = .ok (some i) ↔ q.InDirectory (indexText i).toList k := by
  by_cases hdir : ∃ seg, q.InDirectory seg k
  · obtain ⟨seg, hdir⟩ := hdir
    rw [versionOf_of_inDirectory hdir]
    constructor
    · intro h
      cases hj : parseIndex k (String.ofList seg) with
      | error e => simp [hj] at h
      | ok j =>
        simp only [hj, Except.ok.injEq, Option.some.injEq] at h
        subst h
        exact parseIndex_ofList_eq_ok.mp hj ▸ hdir
    · intro h
      rw [hdir.unique h, parseIndex_ofList_eq_ok.mpr rfl]
  · -- a key in no directory is passed over, and lies in none of an index
    rw [versionOf_of_not_inDirectory hpre (not_exists.mp hdir)]
    exact ⟨fun h => (by cases h), fun h => absurd ⟨_, h⟩ hdir⟩

theorem Version.fileOf_of_isPrefixOf {v : Version} {k : String} (h : v.pre.isPrefixOf k) :
    v.fileOf k = (ObjectPath.parse k).map (Option.map ObjectPath.artifact) := by
  rw [Version.fileOf, if_pos (List.isPrefixOf_iff_prefix.mpr (isPrefixOf_iff.mp h))]

theorem Version.artifactOf_eq_none_iff {v : Version} {k : String} (h : v.pre.isPrefixOf k) :
    v.artifactOf k = .ok none ↔ endsInSlash k = true := by
  rw [← ObjectPath.parse_eq_none_iff]
  unfold Version.artifactOf
  rw [Version.fileOf_of_isPrefixOf h]
  rcases ObjectPath.parse k with e | (_ | p) <;> simp [Except.map]

section Collect

variable {κ : Type} {cmp : κ → κ → Ordering}

theorem collect_eq_nil_iff [Std.TransCmp cmp] [Std.LawfulEqCmp cmp]
    (g : String → Except Fault (Option κ)) (keys : List String) :
    keys.foldlM (collectStep cmp g) [] = .ok [] ↔ ∀ k ∈ keys, g k = .ok none := by
  constructor
  · intro h k hk
    obtain ⟨o, ho⟩ := collect_ok_of_mem g h hk
    cases o with
    | none => exact ho
    | some y =>
      have hy := ((collect_eq_ok g keys h List.Pairwise.nil).2 y).mpr (.inr ⟨k, hk, ho⟩)
      cases hy
  · intro h
    obtain ⟨xs, hxs⟩ : ∃ xs, keys.foldlM (collectStep cmp g) [] = .ok xs :=
      collect_isOk g keys [] (firstFault_eq_none fun k hk => ⟨none, h k hk⟩)
    have hnil : xs = [] := List.eq_nil_iff_forall_not_mem.mpr fun y hy => by
      obtain ⟨k, hk, hky⟩ := (((collect_eq_ok g keys hxs List.Pairwise.nil).2 y).mp hy).resolve_left
        List.not_mem_nil
      rw [h k hk] at hky
      cases hky
    rw [hxs, hnil]

end Collect

namespace Blobs

variable {b : Blobs} {q : Queue}

theorem versions_isOk_iff : (∃ S, b.versions q = .ok S) ↔
    ∀ k seg, b.contains k → q.InDirectory seg k → ∃ i, (indexText i).toList = seg := by
  constructor
  · rintro ⟨S, hS⟩ k seg hk hdir
    have hmem : k ∈ b.under q.pre := mem_under.mpr ⟨mem_keys_iff_contains.mpr hk, hdir.isPrefixOf⟩
    obtain ⟨o, ho⟩ := collect_ok_of_mem q.versionOf hS hmem
    rw [Queue.versionOf_of_inDirectory hdir] at ho
    cases hi : parseIndex k (String.ofList seg) with
    | error e => simp [hi] at ho
    | ok i => exact ⟨i, parseIndex_ofList_eq_ok.mp hi⟩
  · intro h
    refine collect_isOk q.versionOf (b.under q.pre) [] (firstFault_eq_none fun k hk => ?_)
    obtain ⟨hkeys, hpre⟩ := mem_under.mp hk
    by_cases hdir : ∃ seg, q.InDirectory seg k
    · obtain ⟨seg, hdir⟩ := hdir
      obtain ⟨i, hi⟩ := h k seg (mem_keys_iff_contains.mp hkeys) hdir
      rw [Queue.versionOf_of_inDirectory hdir, parseIndex_ofList_eq_ok.mpr hi]
      exact ⟨_, rfl⟩
    · exact ⟨none, Queue.versionOf_of_not_inDirectory hpre (not_exists.mp hdir)⟩

theorem mem_versions {S : List UInt64} (h : b.versions q = .ok S) (i : UInt64) :
    i ∈ S ↔ ∃ k, b.contains k ∧ q.InDirectory (indexText i).toList k := by
  rw [(collect_eq_ok q.versionOf (b.under q.pre) h List.Pairwise.nil).2 i]
  simp only [List.not_mem_nil, false_or]
  constructor
  · rintro ⟨k, hk, hki⟩
    obtain ⟨hkeys, hpre⟩ := mem_under.mp hk
    exact ⟨k, mem_keys_iff_contains.mp hkeys, (Queue.versionOf_eq_ok_some_iff hpre).mp hki⟩
  · rintro ⟨k, hk, hdir⟩
    exact ⟨k, mem_under.mpr ⟨mem_keys_iff_contains.mpr hk, hdir.isPrefixOf⟩,
      (Queue.versionOf_eq_ok_some_iff hdir.isPrefixOf).mpr hdir⟩

theorem files_eq_nil_iff (i : UInt64) :
    b.files (q.version i) = .ok [] ↔ ∀ k, b.contains k → ¬ q.InDirectory (indexText i).toList k := by
  rw [files, collect_eq_nil_iff]
  constructor
  · intro h k hk hdir
    obtain ⟨hpre, hend⟩ := Queue.inDirectory_indexText_iff.mp hdir
    have hnone := h k (mem_under.mpr ⟨mem_keys_iff_contains.mpr hk, hpre⟩)
    rw [Version.artifactOf_eq_none_iff hpre, hend] at hnone
    cases hnone
  · intro h k hk
    obtain ⟨hkeys, hpre⟩ := mem_under.mp hk
    rw [Version.artifactOf_eq_none_iff hpre]
    by_contra hend
    exact h k (mem_keys_iff_contains.mp hkeys)
      (Queue.inDirectory_indexText_iff.mpr ⟨hpre, by simpa using hend⟩)

end Blobs

namespace Op

variable {ρ τ : Type} (fate : StoreCall → ρ → Fate × ρ) (ch : ChainAnswer τ)

/-- The two listings of the coordinator agree with each other and with the memory store, whatever
becomes of writes. Listing the versions of a queue finds no fault exactly when every directory
under its prefix that holds a key is named by the decimal text of an index, and then finds exactly
the indices of those directories. Each index found is one whose files listing fails or finds at
least one file, and only those are found: no version is pending while it holds nothing to remove.
Where listing the files of a version finds them, a valid artifact is among them exactly when its
path holds an object. -/
theorem listings_agree_with_store (q : Queue) (w : Scene (Lossy ρ) τ) :
    ((∃ S, (exec (Lossy.answer fate) ch (listVersions q) w).1 = .ok (.ok S)) ↔
        ∀ k seg, w.store.blobs.contains k → q.InDirectory seg k →
          ∃ i, (indexText i).toList = seg) ∧
      (∀ S, (exec (Lossy.answer fate) ch (listVersions q) w).1 = .ok (.ok S) → ∀ i,
        (i ∈ S ↔ ∃ k, w.store.blobs.contains k ∧ q.InDirectory (indexText i).toList k) ∧
        (i ∈ S ↔ (exec (Lossy.answer fate) ch (listFiles (q.version i)) w).1 ≠ .ok (.ok []))) ∧
      ∀ i files, (exec (Lossy.answer fate) ch (listFiles (q.version i)) w).1 = .ok (.ok files) →
        ∀ f : Artifact, f.Valid → (f ∈ files ↔ w.store.blobs.contains ((q.version i).path f)) := by
  simp only [exec_listVersions, exec_listFiles, Except.ok.injEq, ne_eq]
  refine ⟨Blobs.versions_isOk_iff, fun S hS i => ⟨Blobs.mem_versions hS i, ?_⟩,
    fun i files hfiles f hf => ?_⟩
  · -- an index is found exactly when a key lies in its directory
    rw [Blobs.mem_versions hS i, Blobs.files_eq_nil_iff]
    simp only [not_forall, not_not, exists_prop]
  · rw [Blobs.mem_files hfiles hf.1 hf.2, Blobs.contains_eq_isSome]

end Op

namespace Sample

def payloadOnly : Blobs := Blobs.empty.put (version.path .unsigned) "x".toUTF8

end Sample

namespace Op

/-- The signature named `unsigned` has the payload's path: with the payload stored, listing the
version finds the payload and not that signature, although the signature's path holds an
object. -/
theorem reserved_signature_unlisted :
    ((exec (Lossy.answer Lossy.reliable) Sample.chain (listFiles Sample.version)
        ⟨⟨(), Sample.payloadOnly⟩, (), []⟩).1.toOption.bind Except.toOption) = some [.unsigned] ∧
      Sample.payloadOnly.contains (Sample.version.path (.signature "unsigned")) = true ∧
      Artifact.signature "unsigned" ∉ [Artifact.unsigned] := by
  refine ⟨?_, by decide +kernel, by decide⟩
  rw [exec_listFiles]
  decide +kernel

end Op

end Quorum
