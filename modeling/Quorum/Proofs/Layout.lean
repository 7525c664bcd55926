import Quorum.Proofs.Inspect
import Quorum.Proofs.Numerals
import Quorum.Proofs.Removal

/-!
# Where the objects of a queue lie

Publishing and signing write objects only at the paths of *valid* artifacts, whose file names are
components that read back as the artifact. Such a path lies under the prefix of its own queue and
of no other (`Version.isPrefixOf_path_iff`), and under the prefix of its own version and of no
other (`Version.eq_of_isPrefixOf_path`); listing the queue places it in its version
(`Queue.versionOf_path`).

A store is *tidy* for a queue when every key under the queue's prefix is such a path. Listing the
versions of a tidy queue finds no fault, and the versions it finds are the indices that hold an
object (`Blobs.versions_of_tidy`). Writing valid paths and removing objects keep a queue tidy, and
change which of its indices hold objects only where they write or remove.
-/

namespace Quorum

/-- An artifact whose file name is a component and reads back as the artifact: the payload, the
metadata, or the signature of a signer that signing accepts. -/
def Artifact.Valid (a : Artifact) : Prop :=
  validComponent a.name = true ∧ Artifact.ofName a.name = a

instance (a : Artifact) : Decidable a.Valid :=
  inferInstanceAs (Decidable (_ ∧ _))

theorem Artifact.valid_unsigned : Artifact.unsigned.Valid := by
  decide

theorem Artifact.valid_signdata : Artifact.signdata.Valid := by
  decide

theorem Artifact.valid_of_signature? {signer : String} {a : Artifact}
    (h : Artifact.signature? signer = .ok a) : a.Valid := by
  unfold Artifact.signature? checkComponent at h
  split at h
  · cases h
  · rename_i hcheck
    split at hcheck
    · rename_i hvalid
      split at h
      · rename_i n hn
        cases h
        have hname : n = signer := by
          unfold Artifact.ofName at hn
          split at hn
          · cases hn
          · split at hn
            · cases hn
            · cases hn
              rfl
        subst hname
        exact ⟨hvalid, hn⟩
      · cases h
    · cases hcheck

theorem Artifact.eq_signature_of_signature? {signer : String} {a : Artifact}
    (h : Artifact.signature? signer = .ok a) : a = .signature signer := by
  unfold Artifact.signature? at h
  split at h
  · cases h
  · split at h
    · rename_i n hn
      cases h
      have hname := congrArg Artifact.name hn
      rw [Artifact.name_ofName] at hname
      rw [hname]
      rfl
    · cases h

theorem parseIndex_indexText (path : String) (i : UInt64) : parseIndex path (indexText i) = .ok i := by
  simp [parseIndex, indexText, Numeral.parseU64_repr]

theorem indexText_injective {i j : UInt64} (h : indexText i = indexText j) : i = j := by
  have hi := parseIndex_indexText "" i
  rw [h, parseIndex_indexText] at hi
  cases hi
  rfl

theorem Queue.eq_of_parts {q q' : Queue} (hc : q.chain = q'.chain) (hk : q.key = q'.key) :
    q = q' := by
  cases q
  cases q'
  cases hc
  cases hk
  rfl

theorem toList_queue_pre (q : Queue) :
    q.pre.toList = q.chain.toList ++ '/' :: (q.key.toList ++ ['/']) := by
  simp [Queue.pre, Queue.display]

theorem splitOn_queue_pre_append (q : Queue) (rest : List Char) :
    (q.pre.toList ++ rest).splitOn '/' = q.chain.toList :: q.key.toList :: rest.splitOn '/' := by
  rw [toList_queue_pre]
  simp only [List.append_assoc, List.cons_append, List.nil_append]
  rw [List.splitOn_append_cons_self_of_not_mem (slash_not_mem_of_validComponent q.chain_valid),
    List.splitOn_append_cons_self_of_not_mem (slash_not_mem_of_validComponent q.key_valid)]

theorem toList_pre_eq_queue (v : Version) :
    v.pre.toList = v.queue.pre.toList ++ ((indexText v.index).toList ++ ['/']) := by
  simp [toList_pre, toList_queue_pre]

theorem Version.isPrefixOf_path_self (v : Version) (a : Artifact) : v.pre.isPrefixOf (v.path a) := by
  simp [isPrefixOf_iff, Version.path]

theorem Version.isPrefixOf_path_iff {q : Queue} {v : Version} {a : Artifact} :
    q.pre.isPrefixOf (v.path a) ↔ v.queue = q := by
  constructor
  · intro h
    obtain ⟨rest, hrest⟩ := isPrefixOf_iff.mp h
    have hsplit := congrArg (List.splitOn '/') hrest
    rw [splitOn_queue_pre_append, Version.path, String.toList_append, splitOn_pre_append] at hsplit
    simp only [List.cons.injEq, String.toList_inj] at hsplit
    exact Queue.eq_of_parts hsplit.1.symm hsplit.2.1.symm
  · rintro rfl
    rw [isPrefixOf_iff, Version.path, String.toList_append, toList_pre_eq_queue,
      List.append_assoc]
    exact List.prefix_append _ _

theorem Version.eq_of_isPrefixOf_path {v w : Version} {a : Artifact} (h : v.pre.isPrefixOf (w.path a)) :
    w = v := by
  obtain ⟨rest, hrest⟩ := isPrefixOf_iff.mp h
  have hsplit := congrArg (List.splitOn '/') hrest
  rw [splitOn_pre_append, Version.path, String.toList_append, splitOn_pre_append] at hsplit
  simp only [List.cons.injEq, String.toList_inj] at hsplit
  obtain ⟨hc, hk, hi, -⟩ := hsplit
  obtain ⟨q, i⟩ := v
  obtain ⟨q', i'⟩ := w
  simp only at hc hk hi
  rw [Queue.eq_of_parts hc.symm hk.symm, indexText_injective hi.symm]

theorem Queue.placement_path (v : Version) {a : Artifact} (ha : a.Valid) :
    v.queue.placement (v.path a) = .ok (.version v.index) := by
  have hslash := slash_not_mem_of_validComponent ha.1
  have hne : a.name.toList ≠ [] := by
    have := ha.1
    simp_all [validComponent]
  have hpath : (v.path a).toList =
      v.queue.pre.toList ++ ((indexText v.index).toList ++ '/' :: a.name.toList) := by
    simp [Version.path, toList_pre_eq_queue]
  have hstrip : stripPrefix? (v.path a) v.queue.pre =
      some (String.ofList ((indexText v.index).toList ++ '/' :: a.name.toList)) := by
    rw [stripPrefix?, if_pos (List.isPrefixOf_iff_prefix.mpr (hpath ▸ List.prefix_append _ _)),
      hpath, String.length, List.drop_left]
  have hend : endsInSlash (String.ofList ((indexText v.index).toList ++ '/' :: a.name.toList)) =
      false := by
    obtain ⟨c, hc⟩ := Option.isSome_iff_exists.mp (List.getLast?_isSome.mpr hne)
    have hc' : c ≠ '/' := fun h => hslash (h ▸ List.mem_of_getLast? hc)
    simp [endsInSlash, List.getLast?_append, List.getLast?_cons, hc, hc']
  unfold Queue.placement
  rw [hstrip]
  simp only [String.isEmpty_iff, hend, Bool.or_false, String.toList_ofList,
    List.splitOn_append_cons_self_of_not_mem (slash_not_mem_indexText v.index),
    List.splitOn_eq_singleton hslash]
  simp [String.ofList_toList, parseIndex_indexText, Except.map]

theorem Queue.versionOf_path (v : Version) {a : Artifact} (ha : a.Valid) :
    v.queue.versionOf (v.path a) = .ok (some v.index) := by
  rw [Queue.versionOf, Queue.placement_path v ha]

theorem validComponent_indexText (i : UInt64) : validComponent (indexText i) = true := by
  have hdigit : ∀ c ∈ (indexText i).toList, c.isDigit = true := fun c hc =>
    Nat.isDigit_of_mem_toDigits (b := 10) (by decide) (by decide) (Nat.toList_repr ▸ hc)
  -- a dot is no digit, so the text is neither `.` nor `..`
  have hnot {t : String} (ht : '.' ∈ t.toList) : indexText i ≠ t := fun h =>
    absurd (hdigit '.' (h ▸ ht)) (by decide)
  have hempty : (indexText i).isEmpty = false := by
    cases h : (indexText i).isEmpty
    · rfl
    · have he := congrArg String.toList (String.isEmpty_iff.mp h)
      simp [indexText, Nat.toList_repr, Nat.toDigits_ne_nil] at he
  simp [validComponent, hempty, slash_not_mem_indexText i, hnot (t := ".") (by decide),
    hnot (t := "..") (by decide)]

theorem ObjectPath.parse_path (v : Version) {a : Artifact} (ha : a.Valid) :
    ObjectPath.parse (v.path a) = .ok (some ⟨v, a⟩) := by
  have hslash := slash_not_mem_of_validComponent ha.1
  have hne : a.name.toList ≠ [] := by
    have := ha.1
    simp_all [validComponent]
  have hend : endsInSlash (v.path a) = false := by
    obtain ⟨c, hc⟩ := Option.isSome_iff_exists.mp (List.getLast?_isSome.mpr hne)
    have hc' : c ≠ '/' := fun h => hslash (h ▸ List.mem_of_getLast? hc)
    simp [endsInSlash, Version.path, List.getLast?_append, hc, hc']
  have hseg : segments (v.path a) = [v.queue.chain, v.queue.key, indexText v.index, a.name] := by
    simp [segments, Version.path, splitOn_pre_append, List.splitOn_eq_singleton hslash]
  have hqueue : Queue.new? v.queue.chain v.queue.key = .ok v.queue := by
    simp [Queue.new?, v.queue.chain_valid, v.queue.key_valid]
  unfold ObjectPath.parse
  rw [hend, hseg]
  simp [v.queue.chain_valid, v.queue.key_valid, validComponent_indexText, ha.1, hqueue,
    parseIndex_indexText, ha.2, Queue.version]

theorem Version.fileOf_path_valid (v : Version) {a : Artifact} (ha : a.Valid) :
    v.fileOf (v.path a) = .ok (some a) := by
  rw [Version.fileOf, if_pos (List.isPrefixOf_iff_prefix.mpr
    (isPrefixOf_iff.mp (Version.isPrefixOf_path_self v a))), ObjectPath.parse_path v ha]
  rfl

theorem firstFault_eq_none {β : Type} {g : String → Except Fault β} {keys : List String}
    (h : ∀ k ∈ keys, ∃ x, g k = .ok x) : firstFault g keys = none := by
  induction keys with
  | nil => rfl
  | cons k ks ih =>
    obtain ⟨x, hx⟩ := h k List.mem_cons_self
    rw [firstFault, hx]
    exact ih fun k' hk' => h k' (List.mem_cons_of_mem k hk')

namespace Blobs

theorem contains_put {b : Blobs} {k k' : String} {d : ByteArray} :
    (b.put k d).contains k' = (k == k' || b.contains k') := by
  by_cases h : k = k'
  · simp [contains, put, h]
  · have hne : compare k k' ≠ .eq := fun he => h (Std.LawfulEqCmp.eq_of_compare he)
    simp only [contains, put, Std.ExtTreeMap.contains_insert]
    rw [beq_eq_false_iff_ne.mpr hne, beq_eq_false_iff_ne.mpr h]

theorem mem_keys_iff_contains {b : Blobs} {k : String} : k ∈ b.keys ↔ b.contains k := by
  rw [mem_keys, contains_eq_isSome]

/-- Every key under the queue's prefix is the path of a valid artifact of one of its versions. -/
def Tidy (b : Blobs) (q : Queue) : Prop :=
  ∀ k ∈ b.under q.pre, ∃ i a, a.Valid ∧ k = (q.version i).path a

def Holds (b : Blobs) (q : Queue) (i : UInt64) : Prop :=
  ∃ a, b.contains ((q.version i).path a)

variable {b : Blobs} {q : Queue}

theorem tidy_of_under_eq_nil (h : b.under q.pre = []) : b.Tidy q := by
  intro k hk
  rw [h] at hk
  cases hk

theorem Tidy.valid_of_contains (h : b.Tidy q) {i : UInt64} {a : Artifact}
    (ha : b.contains ((q.version i).path a)) :
    ∃ a', a'.Valid ∧ (q.version i).path a = (q.version i).path a' := by
  have hk : (q.version i).path a ∈ b.under q.pre :=
    mem_under.mpr ⟨mem_keys_iff_contains.mpr ha, Version.isPrefixOf_path_iff.mpr rfl⟩
  obtain ⟨j, a', ha', hpath⟩ := h _ hk
  have hv : q.version j = q.version i :=
    Version.eq_of_isPrefixOf_path (hpath ▸ Version.isPrefixOf_path_self _ _)
  exact ⟨a', ha', hv ▸ hpath⟩

theorem versions_of_tidy (h : b.Tidy q) :
    ∃ V, b.versions q = .ok V ∧ ∀ i, i ∈ V ↔ b.Holds q i := by
  have hplace : ∀ k ∈ b.under q.pre, ∃ i a, a.Valid ∧ k = (q.version i).path a ∧
      q.versionOf k = .ok (some i) := by
    intro k hk
    obtain ⟨i, a, ha, rfl⟩ := h k hk
    exact ⟨i, a, ha, rfl, Queue.versionOf_path (q.version i) ha⟩
  obtain ⟨V, hV⟩ : ∃ V, b.versions q = .ok V := collect_isOk q.versionOf (b.under q.pre) []
    (firstFault_eq_none fun k hk => by
      obtain ⟨i, -, -, -, hi⟩ := hplace k hk
      exact ⟨_, hi⟩)
  refine ⟨V, hV, fun i => ?_⟩
  rw [(collect_eq_ok q.versionOf (b.under q.pre) hV List.Pairwise.nil).2 i]
  simp only [List.not_mem_nil, false_or]
  constructor
  · rintro ⟨k, hk, hki⟩
    obtain ⟨j, a, -, rfl, hj⟩ := hplace k hk
    rw [hki] at hj
    cases hj
    exact ⟨a, mem_keys_iff_contains.mp (mem_under.mp hk).1⟩
  · rintro ⟨a, ha⟩
    obtain ⟨a', ha', hpath⟩ := h.valid_of_contains ha
    refine ⟨_, mem_under.mpr ⟨mem_keys_iff_contains.mpr ha,
      Version.isPrefixOf_path_iff.mpr rfl⟩, ?_⟩
    rw [hpath]
    exact Queue.versionOf_path (q.version i) ha'

theorem files_of_tidy (h : b.Tidy q) (i : UInt64) : ∃ files, b.files (q.version i) = .ok files := by
  obtain ⟨files, hfiles⟩ : ∃ files, b.files (q.version i) = .ok files :=
    collect_isOk (q.version i).artifactOf (b.under (q.version i).pre) [] (firstFault_eq_none
      fun k hk => by
        obtain ⟨hkeys, hpre⟩ := mem_under.mp hk
        have hq : q.pre.isPrefixOf k := by
          rw [isPrefixOf_iff] at hpre ⊢
          exact List.IsPrefix.trans ⟨_, (toList_pre_eq_queue (q.version i)).symm⟩ hpre
        obtain ⟨j, a, ha, rfl⟩ := h k (mem_under.mpr ⟨hkeys, hq⟩)
        rw [Version.eq_of_isPrefixOf_path hpre]
        exact ⟨some a, by simp [Version.artifactOf, Version.fileOf_path_valid _ ha]⟩)
  exact ⟨files, hfiles⟩

theorem under_eq_nil_of_tidy (h : b.Tidy q) (hnone : ∀ i, ¬ b.Holds q i) : b.under q.pre = [] := by
  refine List.eq_nil_iff_forall_not_mem.mpr fun k hk => ?_
  obtain ⟨i, a, -, rfl⟩ := h k hk
  exact hnone i ⟨a, mem_keys_iff_contains.mp (mem_under.mp hk).1⟩

theorem Tidy.put (h : b.Tidy q) (v : Version) {a : Artifact} (ha : a.Valid) (d : ByteArray) :
    (b.put (v.path a) d).Tidy q := by
  intro k hk
  obtain ⟨hkeys, hpre⟩ := mem_under.mp hk
  by_cases hka : v.path a = k
  · subst hka
    obtain rfl := Version.isPrefixOf_path_iff.mp hpre
    exact ⟨v.index, a, ha, rfl⟩
  · have hold : b.contains k := by
      simpa [contains_put, hka] using mem_keys_iff_contains.mp hkeys
    exact h k (mem_under.mpr ⟨mem_keys_iff_contains.mpr hold, hpre⟩)

theorem Tidy.foldl_erase (h : b.Tidy q) (ks : List String) : (ks.foldl erase b).Tidy q := by
  induction ks generalizing b with
  | nil => exact h
  | cons k ks ih =>
    refine ih fun k' hk' => h k' ?_
    obtain ⟨hkeys, hpre⟩ := mem_under.mp hk'
    have hold : b.contains k' := by
      have := mem_keys_iff_contains.mp hkeys
      simp_all [contains_erase]
    exact mem_under.mpr ⟨mem_keys_iff_contains.mpr hold, hpre⟩

theorem holds_put (v : Version) (a : Artifact) (d : ByteArray) (i : UInt64) :
    (b.put (v.path a) d).Holds q i ↔ b.Holds q i ∨ v = q.version i := by
  constructor
  · rintro ⟨a', ha'⟩
    by_cases hka : v.path a = (q.version i).path a'
    · have hpre : (q.version i).pre.isPrefixOf (v.path a) := by
        rw [hka]
        exact Version.isPrefixOf_path_self _ _
      exact .inr (Version.eq_of_isPrefixOf_path hpre)
    · exact .inl ⟨a', by simpa [contains_put, hka] using ha'⟩
  · rintro (⟨a', ha'⟩ | rfl)
    · exact ⟨a', by simp [contains_put, ha']⟩
    · exact ⟨a, by simp [contains_put]⟩

theorem Holds.of_foldl_erase {ks : List String} {i : UInt64} (h : (ks.foldl erase b).Holds q i) :
    b.Holds q i := by
  obtain ⟨a, ha⟩ := h
  refine ⟨a, ?_⟩
  by_cases hk : (q.version i).path a ∈ ks
  · rw [contains_foldl_erase_eq_false (.inl hk)] at ha
    cases ha
  · rwa [contains_foldl_erase hk] at ha

theorem Holds.foldl_erase_of_ne {ks : List String} {v : Version} {i : UInt64} (h : b.Holds q i)
    (hks : ∀ k ∈ ks, v.pre.isPrefixOf k) (hv : q.version i ≠ v) : (ks.foldl erase b).Holds q i := by
  obtain ⟨a, ha⟩ := h
  refine ⟨a, ?_⟩
  have hk : (q.version i).path a ∉ ks := fun hk => hv (Version.eq_of_isPrefixOf_path (hks _ hk))
  rwa [contains_foldl_erase hk]

theorem not_holds_foldl_erase_files (h : b.Tidy q) {i : UInt64} {files : List Artifact}
    (hfiles : b.files (q.version i) = .ok files) :
    ¬ ((files.map (q.version i).path).foldl erase b).Holds q i := by
  rintro ⟨a, ha⟩
  have hold : b.contains ((q.version i).path a) := by
    by_contra hno
    rw [contains_foldl_erase_eq_false (.inr (by simpa using hno))] at ha
    cases ha
  obtain ⟨a', ha', hpath⟩ := h.valid_of_contains hold
  have hmem : a' ∈ files :=
    (mem_files hfiles ha'.1 ha'.2).mpr (contains_eq_isSome ▸ hpath ▸ hold)
  rw [contains_foldl_erase_eq_false (.inl (hpath ▸ List.mem_map_of_mem hmem))] at ha
  cases ha

end Blobs

end Quorum
