import Quorum.Proofs.PlainPaths
import Quorum.Proofs.Paths
import Quorum.Proofs.Reachable
import Quorum.Proofs.Removal
import Quorum.Store.Directory

/-!
# A file tree as the mirror of a store

The store kept as files under `root` holds the object at a key as the file at the key's segments
below the root, written to a partial file beside it and renamed into place. While every key fits
under the root and no key lies above another, the tree mirrors a memory store: each object is its
file, the paths down to it are directories, and nothing else lies below the root. Reading an
object, asking for it, writing it, and deleting it with the pruning of the directories that this
leaves empty, each answer as the memory store does and keep the mirror.
-/

namespace Quorum

theorem Blobs.mem_keys_erase {b : Blobs} {k k' : String} :
    k' ∈ (b.erase k).keys ↔ k' ≠ k ∧ k' ∈ b.keys := by
  rw [Blobs.mem_keys_iff_contains, Blobs.mem_keys_iff_contains, Blobs.contains_erase]
  by_cases h : k = k'
  · subst h
    simp
  · simp [h, Ne.symm h]

@[simp] theorem Blobs.keys_empty : Blobs.empty.keys = [] := by
  simp [Blobs.keys, Blobs.empty]

@[simp] theorem Blobs.get?_empty (k : String) : Blobs.empty.get? k = none := by
  simp [Blobs.get?, Blobs.empty]

namespace Directory

open FileTree

section Keys

theorem segments_ne_nil (s : String) : segments s ≠ [] := by
  simp [segments, List.splitOn_ne_nil]

theorem eq_of_segments_eq {k k' : String} (h : segments k = segments k') : k = k' :=
  String.toList_inj.mp ((toList_of_segments h).trans (toList_of_segments rfl).symm)

theorem ne_path_of_prefix_root {root q : List String} (hq : q <+: root) (k : String) :
    q ≠ root ++ segments k := by
  intro h
  have hlen := hq.length_le
  rw [h, List.length_append] at hlen
  have := List.length_pos_of_ne_nil (segments_ne_nil k)
  omega

/-- A key the store under `root` keeps as a file of its own: not a marker, with plain paths for
the file and for its partial file, and with no segment named as a partial file. -/
structure Fits (root : List String) (key : String) : Prop where
  not_marker : key.endsWith "/" = false
  plain : PlainPath (root ++ segments key)
  plain_partial : PlainPath (partialOf (root ++ segments key))
  whole : ∀ name ∈ segments key, isPartial name = false

def SegmentPrefixFree (keys : List String) : Prop :=
  ∀ k ∈ keys, ∀ k' ∈ keys, segments k <+: segments k' → segments k = segments k'

instance (root : List String) (key : String) : Decidable (Fits root key) :=
  decidable_of_iff (key.endsWith "/" = false ∧ PlainPath (root ++ segments key) ∧
      PlainPath (partialOf (root ++ segments key)) ∧ ∀ name ∈ segments key, isPartial name = false)
    ⟨fun ⟨h₁, h₂, h₃, h₄⟩ => ⟨h₁, h₂, h₃, h₄⟩, fun ⟨h₁, h₂, h₃, h₄⟩ => ⟨h₁, h₂, h₃, h₄⟩⟩

instance (keys : List String) : Decidable (SegmentPrefixFree keys) :=
  inferInstanceAs (Decidable (∀ k ∈ keys, ∀ k' ∈ keys,
    segments k <+: segments k' → segments k = segments k'))

theorem resolve_of_fits {root : List String} {key : String} (h : Fits root key) :
    resolve root key = .ok (root ++ segments key) := by
  have hgood : (segments key).any (fun s => s.isEmpty || s == "." || s == "..") = false := by
    rw [List.any_eq_false]
    intro s hs
    obtain ⟨hne, hdot, hdots, -, -⟩ := h.plain.2.1 s (List.mem_append_right root hs)
    simp [hne, hdot, hdots]
  simp [resolve, h.not_marker, hgood]

theorem intercalate_concat {l : List (List Char)} (hl : l ≠ []) (x : List Char) :
    ['/'].intercalate (l ++ [x]) = ['/'].intercalate l ++ '/' :: x := by
  induction l with
  | nil => exact absurd rfl hl
  | cons a l ih =>
    rcases eq_or_ne l [] with rfl | hl'
    · simp [List.intercalate_cons_cons]
    · obtain ⟨c, l, rfl⟩ := List.exists_cons_of_ne_nil hl'
      rw [List.cons_append, List.cons_append, List.intercalate_cons_cons, ← List.cons_append,
        ih hl', List.intercalate_cons_cons]
      simp

theorem partialOf_append_singleton (init : List String) (name : String) :
    partialOf (init ++ [name]) = init ++ [name ++ partialSuffix] := by
  simp [partialOf]

theorem isPartial_append_suffix (name : String) : isPartial (name ++ partialSuffix) = true := by
  simp [isPartial, List.isSuffixOf_iff_suffix]

theorem partialOf_eq {p : List String} (hp : p ≠ []) :
    partialOf p = p.dropLast ++ [p.getLast hp ++ partialSuffix] := by
  conv_lhs => rw [← List.dropLast_append_getLast hp]
  exact partialOf_append_singleton _ _

theorem dropLast_partialOf {p : List String} (hp : p ≠ []) : (partialOf p).dropLast = p.dropLast := by
  rw [partialOf_eq hp, List.dropLast_concat]

theorem length_partialOf {p : List String} (hp : p ≠ []) : (partialOf p).length = p.length := by
  rw [partialOf_eq hp, List.length_append, List.length_dropLast, List.length_singleton]
  have : p.length ≠ 0 := by simpa using hp
  omega

theorem partialOf_ne {p : List String} (hp : p ≠ []) : partialOf p ≠ p := by
  intro h
  have hlast := congrArg (fun l => l.getLast? ) h
  simp only [partialOf_eq hp, List.getLast?_concat, List.getLast?_eq_some_getLast hp,
    Option.some.injEq] at hlast
  have hsize := congrArg String.utf8ByteSize hlast
  rw [String.utf8ByteSize_append] at hsize
  have : partialSuffix.utf8ByteSize ≠ 0 := by decide
  omega

end Keys

/-- Keys that the store under `root` keeps apart: each fits, and none lies above another. -/
structure Apart (root K : List String) : Prop where
  fits : ∀ k ∈ K, Fits root k
  free : SegmentPrefixFree K

theorem Apart.eq_of_prefix {root K : List String} (hK : Apart root K) {k k' : String} (hk : k ∈ K)
    (hk' : k' ∈ K) (h : root ++ segments k <+: root ++ segments k') : k = k' :=
  eq_of_segments_eq (hK.free k hk k' hk' ((List.prefix_append_right_inj root).mp h))

/-- The tree holds the objects of a store below `root`, for keys from `K`: the object at a key is
the file at its path, the paths from the root down to it are directories, anything else below the
root lies above the path of a key, and the paths above the root are directories, or nothing while
the store is empty. -/
structure Mirrors (root K : List String) (b : Blobs) (t : FileTree) : Prop where
  keys : ∀ k ∈ b.keys, k ∈ K
  ancestors : ∀ q, q <+: root → t.lookup q = some .dir ∨ (t.lookup q = none ∧ b.keys = [])
  files : ∀ k d, b.get? k = some d → t.lookup (root ++ segments k) = some (.file d)
  dirs : ∀ k ∈ b.keys, ∀ q, root <+: q → q <+: root ++ segments k → q ≠ root ++ segments k →
    t.lookup q = some .dir
  covered : ∀ q, root <+: q → q ≠ root → t.lookup q ≠ none →
    ∃ k ∈ b.keys, q <+: root ++ segments k

section Mirrors

variable {root K : List String} {b : Blobs} {t : FileTree} {k : String}
variable (hK : Apart root K) (hM : Mirrors root K b t)
include hK hM

theorem Mirrors.lookup_path (hk : k ∈ K) :
    t.lookup (root ++ segments k) = (b.get? k).map .file := by
  rcases hg : b.get? k with _ | d
  · by_contra hne
    have hP : root ++ segments k ≠ root := by simpa using segments_ne_nil k
    obtain ⟨k', hk', hpre⟩ := hM.covered _ (List.prefix_append root _) hP hne
    obtain rfl := hK.eq_of_prefix hk (hM.keys k' hk') hpre
    simp [Blobs.mem_keys, hg] at hk'
  · exact hM.files k d hg

theorem Mirrors.noFileAbove (hk : k ∈ K) : t.NoFileAbove (root ++ segments k) := by
  intro q d hq hqP hfile
  rcases List.prefix_or_prefix_of_prefix hq (List.prefix_append root (segments k)) with hqr | hrq
  · rcases hM.ancestors q hqr with h | ⟨h, -⟩ <;> rw [hfile] at h <;> cases h
  · by_cases hqr : q = root
    · rcases hM.ancestors q (hqr ▸ List.prefix_refl q) with h | ⟨h, -⟩ <;> rw [hfile] at h <;>
        cases h
    obtain ⟨k', hk', hpre⟩ := hM.covered q hrq hqr (by simp [hfile])
    by_cases hq' : q = root ++ segments k'
    · -- a file above the path of `k` is the path of a key above `k`
      subst hq'
      exact hqP (congrArg _ (congrArg _ (hK.eq_of_prefix (hM.keys k' hk') hk hq)))
    · rw [hM.dirs k' hk' q hrq hpre hq'] at hfile
      cases hfile

omit hK in
theorem Mirrors.dirsAbove (hk : k ∈ b.keys) : t.DirsAbove (root ++ segments k) := by
  intro q hq hqP
  rcases List.prefix_or_prefix_of_prefix hq (List.prefix_append root (segments k)) with hqr | hrq
  · rcases hM.ancestors q hqr with h | ⟨-, hnil⟩
    · exact h
    · simp [hnil] at hk
  · exact hM.dirs k hk q hrq hq hqP

theorem Mirrors.lookup_partial : t.lookup (partialOf (root ++ segments k)) = none := by
  have hs := segments_ne_nil k
  have hpartial : partialOf (root ++ segments k) =
      root ++ ((segments k).dropLast ++ [(segments k).getLast hs ++ partialSuffix]) := by
    rw [partialOf_eq (by simp [hs]), List.dropLast_append_of_ne_nil hs,
      List.getLast_append_right hs, List.append_assoc]
  by_contra hne
  rw [hpartial] at hne
  obtain ⟨k', hk', hpre⟩ := hM.covered _ (List.prefix_append root _) (by simp) hne
  have hmem : (segments k).getLast hs ++ partialSuffix ∈ segments k' :=
    ((List.prefix_append_right_inj root).mp hpre).subset (by simp)
  have := (hK.fits k' (hM.keys k' hk')).whole _ hmem
  rw [isPartial_append_suffix] at this
  cases this

end Mirrors

section Running

variable {α β : Type} {root : List String} {t : FileTree}

theorem run_liftExcept_bind {a : α} (f : α → Fs β) :
    (get.liftExcept (.ok a) >>= f).run = (f a).run := rfl

theorem run_lift_call_bind (c : FsCall) (f : Except IoError c.Result → Fs β) :
    Program.run FileTree.answer (liftM (Files.call c) >>= f).run t =
      Program.run FileTree.answer (f (FileTree.answer c t).1).run (FileTree.answer c t).2 := rfl

theorem run_bind_ok {x : Fs α} {f : α → Fs β} {a : α} {t' : FileTree}
    (h : Program.run FileTree.answer x.run t = (.ok (.ok a), t')) :
    Program.run FileTree.answer (x >>= f).run t = Program.run FileTree.answer (f a).run t' := by
  rw [ExceptT.run_bind]
  refine (Program.run_bind FileTree.answer x.run _ t).trans ?_
  rw [h]

theorem run_lift {x : Program FileSystem α} {a : α} {t' : FileTree}
    (h : Program.run FileTree.answer x t = (.ok a, t')) :
    Program.run FileTree.answer (liftM x : Fs α).run t = (.ok (.ok a), t') := by
  show Program.run FileTree.answer (x.bind fun a => .pure (Except.ok a)) t = _
  refine (Program.run_bind FileTree.answer x _ t).trans ?_
  rw [h]
  rfl

theorem run_makeDirs {context : String} {p : List String} {t' : FileTree}
    (h : Program.run FileTree.answer (Files.createDirAll p) t = (.ok (.ok ()), t')) :
    Program.run FileTree.answer (makeDirs context p).run t = (.ok (.ok ()), t') := by
  unfold makeDirs
  rw [run_bind_ok (run_lift h)]
  rfl

theorem run_attempt {context : String} {c : FsCall} {x : c.Result} {t' : FileTree}
    (h : FileTree.answer c t = (.ok x, t')) :
    Program.run FileTree.answer (attempt context c).run t = (.ok (.ok x), t') := by
  unfold attempt
  rw [run_lift_call_bind, h]
  rfl

theorem run_mapM {γ δ : Type} {f : γ → Fs δ} {R : γ → δ → Prop} {l : List γ}
    (h : ∀ x ∈ l, ∃ r, Program.run FileTree.answer (f x).run t = (.ok (.ok r), t) ∧ R x r) :
    ∃ rs, Program.run FileTree.answer (l.mapM f).run t = (.ok (.ok rs), t) ∧ List.Forall₂ R l rs := by
  induction l with
  | nil => exact ⟨[], by rw [List.mapM_nil]; rfl, .nil⟩
  | cons x l ih =>
    obtain ⟨r, hr, hxr⟩ := h x List.mem_cons_self
    obtain ⟨rs, hrs, hlrs⟩ := ih fun y hy => h y (List.mem_cons_of_mem x hy)
    refine ⟨r :: rs, ?_, .cons hxr hlrs⟩
    rw [List.mapM_cons, run_bind_ok hr, run_bind_ok hrs]
    rfl

theorem run_mapM_bind {γ δ ε : Type} {f : γ → Fs δ} {g : List δ → Fs ε} {R : γ → δ → Prop}
    {l : List γ} {P : ε → Prop}
    (h : ∀ x ∈ l, ∃ r, Program.run FileTree.answer (f x).run t = (.ok (.ok r), t) ∧ R x r)
    (hg : ∀ rs, List.Forall₂ R l rs →
      ∃ y, Program.run FileTree.answer (g rs).run t = (.ok (.ok y), t) ∧ P y) :
    ∃ y, Program.run FileTree.answer (l.mapM f >>= g).run t = (.ok (.ok y), t) ∧ P y := by
  obtain ⟨rs, hrs, hR⟩ := run_mapM h
  rw [run_bind_ok hrs]
  exact hg rs hR

theorem answer_of_run {c : StoreCall} {x : Except StoreError c.Reply} {t' : FileTree}
    (h : Program.run FileTree.answer (serve root c).run t = (.ok x, t')) :
    Directory.answer root c t = (x, t') := by
  unfold Directory.answer
  rw [h]

end Running

section Calls

variable {root K : List String} {b : Blobs} {t : FileTree} {k : String}
variable (hK : Apart root K) (hM : Mirrors root K b t)
include hK hM

theorem Mirrors.missing_or_file (hk : k ∈ K) :
    (b.get? k = none ∧ t.Missing (root ++ segments k)) ∨
      ∃ d, b.get? k = some d ∧ t.DirsAbove (root ++ segments k) ∧
        t.lookup (root ++ segments k) = some (.file d) := by
  have hplain := (hK.fits k hk).plain
  rcases hg : b.get? k with _ | d
  · refine .inl ⟨rfl, missing_of_noFileAbove hplain (hM.noFileAbove hK hk) ?_⟩
    rw [hM.lookup_path hK hk, hg]
    rfl
  · have hkeys : k ∈ b.keys := Blobs.mem_keys.mpr (by simp [hg])
    exact .inr ⟨d, rfl, hM.dirsAbove hkeys, hM.files k d hg⟩

theorem Mirrors.answer_get (hk : k ∈ K) : Directory.answer root (.get k) t = (.ok (b.get? k), t) := by
  have hfits := hK.fits k hk
  refine answer_of_run ?_
  show Program.run FileTree.answer (get root k).run t = _
  unfold get
  rw [resolve_of_fits hfits, run_liftExcept_bind, if_neg (Bool.eq_false_iff.mp hfits.not_marker),
    run_lift_call_bind]
  rcases hM.missing_or_file hK hk with ⟨hg, hmiss⟩ | ⟨d, hg, hd, hn⟩
  · rw [answer_readFile_missing hfits.plain hmiss, hg]
    rfl
  · rw [answer_readFile hfits.plain hd hn, hg]
    rfl

theorem Mirrors.answer_contains (hk : k ∈ K) :
    Directory.answer root (.contains k) t = (.ok (b.contains k), t) := by
  have hfits := hK.fits k hk
  refine answer_of_run ?_
  show Program.run FileTree.answer (contains root k).run t = _
  unfold contains
  rw [resolve_of_fits hfits, run_liftExcept_bind, run_lift_call_bind, Blobs.contains_eq_isSome]
  rcases hM.missing_or_file hK hk with ⟨hg, hmiss⟩ | ⟨d, hg, hd, hn⟩
  · rw [answer_status_missing hfits.plain hmiss, hg]
    rfl
  · rw [answer_status hfits.plain hd hn, hg]
    simp [hfits.not_marker, Node.kind]
    rfl

theorem Mirrors.answer_put (hk : k ∈ K) (d : ByteArray) :
    ∃ t', Directory.answer root (.put k d) t = (.ok (), t') ∧
      ∀ q, t'.lookup q = if q = root ++ segments k then some (.file d)
        else if q <+: (root ++ segments k).dropLast then some .dir else t.lookup q := by
  have hfits := hK.fits k hk
  have hP : root ++ segments k ≠ [] := by simp [segments_ne_nil]
  have hdrop := List.dropLast_prefix (root ++ segments k)
  obtain ⟨t₁, hrun₁, hlook₁⟩ := run_createDirAll (dropLast_nil_or_plainPath hfits.plain)
    fun q e hq => (hM.noFileAbove hK hk) q e (hq.trans hdrop) ((prefix_dropLast_iff hP).mp hq).2
  have hunder : ∀ q, q.length = (root ++ segments k).length → t₁.lookup q = t.lookup q := by
    intro q hlen
    rw [hlook₁, if_neg]
    intro hq
    have hshort := length_lt_of_prefix_dropLast hP hq
    rw [hlen] at hshort
    exact lt_irrefl _ hshort
  have hPP := hfits.plain_partial
  have hPPne := partialOf_ne hP
  have hd₁ : t₁.DirsAbove (partialOf (root ++ segments k)) := by
    intro q hq hne
    have hq' := (prefix_dropLast_iff hPP.1).mpr ⟨hq, hne⟩
    rw [dropLast_partialOf hP] at hq'
    rw [hlook₁, if_pos hq']
  have hfree₁ : t₁.lookup (partialOf (root ++ segments k)) = none := by
    rw [hunder _ (length_partialOf hP), hM.lookup_partial hK]
  have hans₂ := answer_writeFile hPP hd₁ (by rw [hfree₁]; simp) d
  have hd₂src : FileTree.DirsAbove ⟨t₁.nodes.insert (partialOf (root ++ segments k)) (.file d)⟩
      (partialOf (root ++ segments k)) := by
    intro q hq hne
    rw [lookup_insert hPP.1, if_neg hne]
    exact hd₁ q hq hne
  have hd₂dst : FileTree.DirsAbove ⟨t₁.nodes.insert (partialOf (root ++ segments k)) (.file d)⟩
      (root ++ segments k) := by
    intro q hq hne
    have hq' := (prefix_dropLast_iff hP).mpr ⟨hq, hne⟩
    have hshort : q ≠ partialOf (root ++ segments k) := by
      rintro rfl
      have hlen := length_lt_of_prefix_dropLast hP hq'
      rw [length_partialOf hP] at hlen
      exact lt_irrefl _ hlen
    rw [lookup_insert hPP.1, if_neg hshort, hlook₁, if_pos hq']
  have hdst₂ : FileTree.lookup ⟨t₁.nodes.insert (partialOf (root ++ segments k)) (.file d)⟩
      (root ++ segments k) ≠ some .dir := by
    rw [lookup_insert hPP.1, if_neg hPPne.symm, hunder _ rfl, hM.lookup_path hK hk]
    cases b.get? k <;> simp
  have hans₃ := answer_rename hPP hd₂src hfits.plain hd₂dst
    (by rw [lookup_insert hPP.1, if_pos rfl]) hdst₂ hPPne
  refine ⟨⟨((t₁.nodes.insert (partialOf (root ++ segments k)) (.file d)).erase
    (partialOf (root ++ segments k))).insert (root ++ segments k) (.file d)⟩,
    answer_of_run ?_, fun q => ?_⟩
  · show Program.run FileTree.answer (put root k d).run t = _
    unfold put
    rw [resolve_of_fits hfits, run_liftExcept_bind]
    simp only [hfits.not_marker, Bool.false_eq_true, ↓reduceIte]
    erw [run_bind_ok (run_makeDirs hrun₁), run_bind_ok (run_attempt hans₂), run_attempt hans₃]
    rfl
  · rw [lookup_insert hP, lookup_erase hPP.1, lookup_insert hPP.1]
    by_cases hqP : q = root ++ segments k
    · rw [if_pos hqP, if_pos hqP]
    rw [if_neg hqP, if_neg hqP]
    by_cases hqPP : q = partialOf (root ++ segments k)
    · -- the partial file is gone, as it was before
      rw [if_pos hqPP, ← hfree₁, ← hqPP, hlook₁]
    · rw [if_neg hqPP, if_neg hqPP, hlook₁]

theorem Mirrors.put (hk : k ∈ K) {d : ByteArray} {t' : FileTree}
    (hlook : ∀ q, t'.lookup q = if q = root ++ segments k then some (.file d)
      else if q <+: (root ++ segments k).dropLast then some .dir else t.lookup q) :
    Mirrors root K (b.put k d) t' := by
  have hP : root ++ segments k ≠ [] := by simp [segments_ne_nil]
  have habove : ∀ q, q <+: root ++ segments k → q ≠ root ++ segments k →
      t'.lookup q = some .dir := by
    intro q hq hne
    rw [hlook, if_neg hne, if_pos ((prefix_dropLast_iff hP).mpr ⟨hq, hne⟩)]
  have hother : ∀ k' ∈ K, k' ≠ k → t'.lookup (root ++ segments k') = t.lookup (root ++ segments k') := by
    intro k' hk' hne
    have hpath : root ++ segments k' ≠ root ++ segments k :=
      fun h => hne (eq_of_segments_eq (List.append_cancel_left h))
    rw [hlook, if_neg hpath, if_neg]
    intro hpre
    exact hne (hK.eq_of_prefix hk' hk (hpre.trans (List.dropLast_prefix _)))
  have hkeys : ∀ k' ∈ (b.put k d).keys, k' ∈ K := by
    intro k' hk'
    rcases Blobs.mem_keys_put.mp hk' with rfl | hk'
    · exact hk
    · exact hM.keys k' hk'
  constructor
  · exact hkeys
  · intro q hq
    exact .inl (habove q (hq.trans (List.prefix_append root _)) (ne_path_of_prefix_root hq k))
  · intro k' d' hg
    rw [Blobs.get?_put] at hg
    by_cases hkk : k = k'
    · subst hkk
      rw [if_pos rfl] at hg
      rw [hlook, if_pos rfl, Option.some.inj hg]
    · rw [if_neg hkk] at hg
      have hk' : k' ∈ K := hM.keys k' (Blobs.mem_keys.mpr (by simp [hg]))
      rw [hother k' hk' (Ne.symm hkk), hM.files k' d' hg]
  · intro k' hk' q hrq hq hne
    by_cases hqP : q = root ++ segments k
    · -- the file of `k` cannot lie above another key's file
      subst hqP
      exact absurd (congrArg (root ++ segments ·) (hK.eq_of_prefix hk (hkeys k' hk') hq)) hne
    rw [hlook, if_neg hqP]
    split
    case isTrue => rfl
    case isFalse hnot =>
      rcases Blobs.mem_keys_put.mp hk' with rfl | hk'
      · exact absurd ((prefix_dropLast_iff hP).mpr ⟨hq, hne⟩) hnot
      · exact hM.dirs k' hk' q hrq hq hne
  · intro q hrq hqr hq
    have hmem : k ∈ (b.put k d).keys := Blobs.mem_keys_put.mpr (.inl rfl)
    rw [hlook] at hq
    by_cases hqP : q = root ++ segments k
    · exact ⟨k, hmem, hqP ▸ List.prefix_refl _⟩
    rw [if_neg hqP] at hq
    by_cases hqd : q <+: (root ++ segments k).dropLast
    · exact ⟨k, hmem, hqd.trans (List.dropLast_prefix _)⟩
    rw [if_neg hqd] at hq
    obtain ⟨k', hk', hpre⟩ := hM.covered q hrq hqr hq
    exact ⟨k', Blobs.mem_keys_put.mpr (.inr hk'), hpre⟩

end Calls

theorem entry_toward_file {t : FileTree} {dir p : List String} {d : ByteArray}
    (hfile : t.lookup p = some (.file d))
    (hdirs : ∀ q, dir <+: q → q <+: p → q ≠ p → t.lookup q = some .dir)
    (hdir : t.lookup dir = some .dir) (hp : dir <+: p) :
    ∃ name n, (name, n) ∈ t.children dir ∧ dir ++ [name] <+: p := by
  obtain ⟨r, rfl⟩ := hp
  obtain ⟨name, r, rfl⟩ := List.exists_cons_of_ne_nil (show r ≠ [] by
    rintro rfl
    rw [List.append_nil, hdir] at hfile
    cases hfile)
  have hpath : dir ++ [name] <+: dir ++ name :: r := by simp
  have hentry : t.lookup (dir ++ [name]) ≠ none := by
    by_cases hlast : dir ++ [name] = dir ++ name :: r
    · rw [hlast, hfile]
      simp
    · rw [hdirs _ (List.prefix_append _ _) hpath hlast]
      simp
  obtain ⟨n, hn⟩ := Option.ne_none_iff_exists'.mp hentry
  exact ⟨name, n, mem_children.mpr hn, hpath⟩

/-- The tree mirrors the store below `root` but for the directories from the root down to `top`,
which removing an object may have left empty: they are directories, and what they do not lie above
is as in a mirror. -/
structure Pruning (root K : List String) (b : Blobs) (t : FileTree) (top : List String) : Prop where
  keys : ∀ k ∈ b.keys, k ∈ K
  ancestors : ∀ q, q <+: root → t.lookup q = some .dir
  files : ∀ k d, b.get? k = some d → t.lookup (root ++ segments k) = some (.file d)
  dirs : ∀ k ∈ b.keys, ∀ q, root <+: q → q <+: root ++ segments k → q ≠ root ++ segments k →
    t.lookup q = some .dir
  chain : ∀ q, root <+: q → q <+: top → t.lookup q = some .dir
  covered : ∀ q, root <+: q → q ≠ root → t.lookup q ≠ none →
    (∃ k ∈ b.keys, q <+: root ++ segments k) ∨ q <+: top
  root_top : root <+: top
  plain_top : top ≠ root → PlainPath top

section Removal

variable {root K : List String} {b : Blobs} {t : FileTree} {top : List String}

theorem Pruning.mirrors (hR : Pruning root K b t top)
    (htop : top = root ∨ ∃ k ∈ b.keys, top <+: root ++ segments k) : Mirrors root K b t where
  keys := hR.keys
  ancestors q hq := .inl (hR.ancestors q hq)
  files := hR.files
  dirs := hR.dirs
  covered q hrq hqr hq := by
    rcases hR.covered q hrq hqr hq with h | hqt
    · exact h
    rcases htop with rfl | ⟨k, hk, hpre⟩
    · exact absurd (List.IsPrefix.eq_of_length hqt (le_antisymm hqt.length_le hrq.length_le)) hqr
    · exact ⟨k, hk, hqt.trans hpre⟩

theorem ne_nil_of_prefix_ne {p q : List String} (h : p <+: q) (hne : q ≠ p) : q ≠ [] := by
  rintro rfl
  exact hne (List.prefix_nil.mp h).symm

theorem Pruning.above_of_entry (hR : Pruning root K b t top) {name : String} {n : Node} (hn : (name, n) ∈ t.children top) :
    ∃ k ∈ b.keys, top <+: root ++ segments k := by
  have hlook := mem_children.mp hn
  have hlen : (top ++ [name]).length ≠ root.length := by
    have := hR.root_top.length_le
    simp only [List.length_append, List.length_singleton]
    omega
  rcases hR.covered (top ++ [name]) (hR.root_top.trans (List.prefix_append _ _))
      (fun h => hlen (congrArg List.length h)) (by simp [hlook]) with ⟨k, hk, hpre⟩ | hshort
  · exact ⟨k, hk, (List.prefix_append _ _).trans hpre⟩
  · have := hshort.length_le
    simp at this

theorem Pruning.removeDir (hR : Pruning root K b t top) (hne : top ≠ root)
    (hempty : (t.children top).isEmpty) :
    Pruning root K b ⟨t.nodes.erase top⟩ top.dropLast := by
  have htop := ne_nil_of_prefix_ne hR.root_top hne
  have hbelow : ∀ k ∈ b.keys, ¬ top <+: root ++ segments k := by
    intro k hk hpre
    obtain ⟨d, hd⟩ := Option.isSome_iff_exists.mp (Blobs.mem_keys.mp hk)
    obtain ⟨name, n, hn, -⟩ := entry_toward_file (hR.files k d hd)
      (fun q hq => hR.dirs k hk q (hR.root_top.trans hq))
      (hR.chain top hR.root_top (List.prefix_refl top)) hpre
    rw [List.isEmpty_iff.mp hempty] at hn
    cases hn
  have hlook := fun q => lookup_erase (t := t) htop q
  have hshort : ∀ q, q.length < top.length → q ≠ top := fun q hq h => by rw [h] at hq; omega
  have hrootlen : root.length < top.length := by
    have := hR.root_top.length_le
    have : root.length ≠ top.length := fun h => hne (hR.root_top.eq_of_length h).symm
    omega
  constructor
  · exact hR.keys
  · intro q hq
    rw [hlook, if_neg (hshort q (lt_of_le_of_lt hq.length_le hrootlen))]
    exact hR.ancestors q hq
  · intro k d hd
    have hk : k ∈ b.keys := Blobs.mem_keys.mpr (by simp [hd])
    rw [hlook, if_neg fun (h : root ++ segments k = top) => hbelow k hk (h ▸ List.prefix_refl _)]
    exact hR.files k d hd
  · intro k hk q hrq hq hqk
    rw [hlook, if_neg fun (h : q = top) => hbelow k hk (h ▸ hq)]
    exact hR.dirs k hk q hrq hq hqk
  · intro q hrq hq
    have hq' := (prefix_dropLast_iff htop).mp hq
    rw [hlook, if_neg hq'.2]
    exact hR.chain q hrq hq'.1
  · intro q hrq hqr hq
    rw [hlook] at hq
    by_cases hqt : q = top
    · rw [if_pos hqt] at hq
      exact absurd rfl hq
    rw [if_neg hqt] at hq
    exact (hR.covered q hrq hqr hq).imp_right fun h => (prefix_dropLast_iff htop).mpr ⟨h, hqt⟩
  · exact (prefix_dropLast_iff htop).mpr ⟨hR.root_top, Ne.symm hne⟩
  · intro hne'
    have hroot := (prefix_dropLast_iff htop).mpr ⟨hR.root_top, Ne.symm hne⟩
    exact (hR.plain_top hne).of_isPrefix (ne_nil_of_prefix_ne hroot hne') <| List.dropLast_prefix top

theorem Pruning.prune (hR : Pruning root K b t top) :
    ∃ t', Program.run FileTree.answer (Directory.prune root top) t = (.ok (), t') ∧
      Mirrors root K b t' := by
  induction top using Directory.prune.induct root generalizing t with
  | case1 top hstop =>
    refine ⟨t, by rw [Directory.prune, dif_pos hstop]; rfl, hR.mirrors (.inl ?_)⟩
    have hle := hR.root_top.length_le
    rcases hstop with hlen | hpre
    · exact (hR.root_top.eq_of_length (le_antisymm hle hlen)).symm
    · simp [List.isPrefixOf_iff_prefix.mpr hR.root_top] at hpre
  | case2 top hgo ih =>
    have hne : top ≠ root := fun h => hgo (.inl (h ▸ le_refl _))
    have hplain := hR.plain_top hne
    have hd : t.DirsAbove top := by
      intro q hq _
      rcases List.prefix_or_prefix_of_prefix hq hR.root_top with hqr | hrq
      · exact hR.ancestors q hqr
      · exact hR.chain q hrq hq
    rw [Directory.prune, dif_neg hgo, run_call_bind,
      answer_removeDir hplain hd (hR.chain top hR.root_top (List.prefix_refl top))]
    by_cases hempty : (t.children top).isEmpty
    · -- the directory is empty: it goes, and pruning goes on from its parent
      rw [if_pos hempty]
      exact ih (hR.removeDir hne hempty)
    · -- the directory still holds an entry, which lies above an object
      rw [if_neg hempty]
      obtain ⟨⟨name, n⟩, hn⟩ := List.exists_mem_of_ne_nil (t.children top)
        fun h => hempty (by simp [h])
      exact ⟨t, rfl, hR.mirrors (.inr (hR.above_of_entry hn))⟩

end Removal

section Deletion

variable {root K : List String} {b : Blobs} {t : FileTree} {k : String}
variable (hK : Apart root K) (hM : Mirrors root K b t)
include hK hM

theorem Mirrors.pruning_erase (hk : k ∈ K) {d : ByteArray} (hg : b.get? k = some d) :
    Pruning root K (b.erase k) ⟨t.nodes.erase (root ++ segments k)⟩ (root ++ segments k).dropLast := by
  have hP : root ++ segments k ≠ [] := by simp [segments_ne_nil]
  have hPr : root ++ segments k ≠ root := by simp [segments_ne_nil]
  have hkeys : k ∈ b.keys := Blobs.mem_keys.mpr (by simp [hg])
  have hlook := fun q => lookup_erase (t := t) hP q
  -- the path of a key is never strictly above that of another
  have hnot : ∀ k' ∈ b.keys, k' ≠ k → ∀ q, q <+: root ++ segments k' → q ≠ root ++ segments k := by
    rintro k' hk' hne q hq rfl
    exact hne (hK.eq_of_prefix hk (hM.keys k' hk') hq).symm
  have hroot : root <+: (root ++ segments k).dropLast :=
    (prefix_dropLast_iff hP).mpr ⟨List.prefix_append _ _, hPr.symm⟩
  constructor
  · intro k' hk'
    exact hM.keys k' (Blobs.mem_keys_erase.mp hk').2
  · intro q hq
    rw [hlook, if_neg (ne_path_of_prefix_root hq k)]
    rcases hM.ancestors q hq with h | ⟨-, hnil⟩
    · exact h
    · simp [hnil] at hkeys
  · intro k' d' hd'
    rw [Blobs.get?_erase] at hd'
    by_cases hkk : k = k'
    · rw [if_pos hkk] at hd'
      cases hd'
    rw [if_neg hkk] at hd'
    have hk' : k' ∈ b.keys := Blobs.mem_keys.mpr (by simp [hd'])
    rw [hlook, if_neg (hnot k' hk' (Ne.symm hkk) _ (List.prefix_refl _)), hM.files k' d' hd']
  · intro k' hk' q hrq hq hne
    obtain ⟨hkk, hk'⟩ := Blobs.mem_keys_erase.mp hk'
    rw [hlook, if_neg (hnot k' hk' hkk q hq)]
    exact hM.dirs k' hk' q hrq hq hne
  · intro q hrq hq
    have hq' := (prefix_dropLast_iff hP).mp hq
    rw [hlook, if_neg hq'.2]
    exact hM.dirs k hkeys q hrq hq'.1 hq'.2
  · intro q hrq hqr hq
    rw [hlook] at hq
    by_cases hqP : q = root ++ segments k
    · rw [if_pos hqP] at hq
      exact absurd rfl hq
    rw [if_neg hqP] at hq
    obtain ⟨k', hk', hpre⟩ := hM.covered q hrq hqr hq
    by_cases hkk : k' = k
    · subst hkk
      exact .inr ((prefix_dropLast_iff hP).mpr ⟨hpre, hqP⟩)
    · exact .inl ⟨k', Blobs.mem_keys_erase.mpr ⟨hkk, hk'⟩, hpre⟩
  · exact hroot
  · intro hne
    exact (hK.fits k hk).plain.of_isPrefix (ne_nil_of_prefix_ne hroot hne) <| List.dropLast_prefix _

theorem Mirrors.answer_delete (hk : k ∈ K) :
    ∃ t', Directory.answer root (.delete k) t = (.ok (), t') ∧ Mirrors root K (b.erase k) t' := by
  have hfits := hK.fits k hk
  rcases hM.missing_or_file hK hk with ⟨hg, hmiss⟩ | ⟨d, hg, hd, hn⟩
  · -- nothing to remove, and the store is as it was
    have hb : b.erase k = b := Blobs.ext fun k' => by
      rw [Blobs.get?_erase]
      split
      case isTrue h => rw [← h, hg]
      case isFalse => rfl
    refine ⟨t, answer_of_run ?_, by rw [hb]; exact hM⟩
    show Program.run FileTree.answer (delete root k).run t = _
    unfold delete
    rw [resolve_of_fits hfits, run_liftExcept_bind]
    simp only [hfits.not_marker, Bool.false_eq_true, ↓reduceIte]
    erw [run_lift_call_bind, answer_removeFile_missing hfits.plain hmiss]
    rfl
  · -- the file goes, then the directories it leaves empty
    obtain ⟨t', hrun, hM'⟩ := (hM.pruning_erase hK hk hg).prune
    refine ⟨t', answer_of_run ?_, hM'⟩
    show Program.run FileTree.answer (delete root k).run t = _
    unfold delete
    rw [resolve_of_fits hfits, run_liftExcept_bind]
    simp only [hfits.not_marker, Bool.false_eq_true, ↓reduceIte]
    erw [run_lift_call_bind, answer_removeFile hfits.plain hd hn]
    exact run_lift hrun

end Deletion

end Directory

end Quorum
