import Quorum.Proofs.Listing
import Quorum.Proofs.Paths
import Mathlib.Data.List.Sort

/-!
# What the coordinator reads from a memory store

Listing the versions of a queue, listing the files of a version, and fetching an artifact change
nothing but the log, and their results are functions of the objects of the store: the versions
and the files are what the keys under the prefix make, collected in ascending order
(`Op.exec_listVersions`, `Op.exec_listFiles`, `Op.exec_fetch`).

The signature files of a version are the keys under its prefix that read as signatures. Each of
them is its signer's path in the version, so in key order the signer names ascend
(`Blobs.signatures_ascending`), and they are the names of the signatures among the listed files
(`Blobs.signerNames_of_files`).
-/

namespace Quorum

/-- What listing the versions of a queue makes of a key: the index of the version it is in, nothing
for a marker or a loose object, or the fault of a key that does not fit. -/
def Queue.versionOf (q : Queue) (key : String) : Except Fault (Option UInt64) :=
  match q.placement key with
  | .error e => .error (.classification e.message)
  | .ok (.version i) => .ok (some i)
  | .ok _ => .ok none

/-- What listing the files of a version makes of a key: the artifact it names, nothing for a
marker, or the fault of a key that does not fit. -/
def Version.artifactOf (v : Version) (key : String) : Except Fault (Option Artifact) :=
  match v.fileOf key with
  | .error e => .error (.classification e.message)
  | .ok a => .ok a

namespace Artifact

instance : Std.OrientedCmp Artifact.compare where
  eq_swap {a b} := by
    cases a <;> cases b <;> simp only [Artifact.compare, Ordering.swap]
    exact Std.OrientedCmp.eq_swap

instance : Std.TransCmp Artifact.compare where
  isLE_trans {a b c} := by
    cases a <;> cases b <;> cases c <;> simp [Artifact.compare]
    all_goals exact Std.TransCmp.isLE_trans

instance : Std.LawfulEqCmp Artifact.compare where
  compare_self {a} := by cases a <;> simp [Artifact.compare]
  eq_of_compare {a b} h := by
    cases a <;> cases b <;> simp_all [Artifact.compare]

end Artifact

theorem lt_of_append_lt_append {p a b : List Char} (h : p ++ a < p ++ b) : a < b := by
  induction p with
  | nil => exact h
  | cons x p ih => exact ih ((List.cons_lt_cons_iff.mp h).resolve_left (lt_irrefl x)).2

namespace Blobs

variable (b : Blobs)

/-- The indices of the versions of a queue, as listing them finds them in the objects. -/
def versions (q : Queue) : Except Fault (List UInt64) :=
  (b.under q.pre).foldlM (collectStep Ord.compare q.versionOf) []

def files (v : Version) : Except Fault (List Artifact) :=
  (b.under v.pre).foldlM (collectStep Artifact.compare v.artifactOf) []

/-- The stored bytes of an artifact of a version, or the fault of a missing one. -/
def fetch (v : Version) (a : Artifact) : Except Fault ByteArray :=
  match b.get? (v.path a) with
  | some d => .ok d
  | none => .error (.versionNotFound (v.path a))

/-- The signer's name and the stored bytes of a key that is a signature file of the version. -/
def signatureAt (v : Version) (k : String) : Option (String × ByteArray) :=
  match v.fileOf k, b.get? k with
  | .ok (some (.signature n)), some d => some (n, d)
  | _, _ => none

/-- The signature files of a version in key order, each as its signer's name and stored bytes. -/
def signatures (v : Version) : List (String × ByteArray) :=
  (b.under v.pre).filterMap (b.signatureAt v)

variable {b}

theorem signatureAt_eq_some {v : Version} {k n : String} {d : ByteArray} :
    b.signatureAt v k = some (n, d) ↔
      v.fileOf k = .ok (some (.signature n)) ∧ b.get? k = some d := by
  unfold signatureAt
  split <;> simp_all

theorem mem_signatures {v : Version} {n : String} {d : ByteArray} :
    (n, d) ∈ b.signatures v ↔
      ∃ k ∈ b.under v.pre, v.fileOf k = .ok (some (.signature n)) ∧ b.get? k = some d := by
  simp only [signatures, List.mem_filterMap, signatureAt_eq_some]

theorem get?_of_mem_signatures {v : Version} {x : String × ByteArray} (h : x ∈ b.signatures v) :
    b.get? (v.path (.signature x.1)) = some x.2 := by
  obtain ⟨k, -, hk, hd⟩ := mem_signatures.mp h
  rwa [Version.path_of_fileOf hk]

theorem signatures_ascending (v : Version) :
    ((b.signatures v).map Prod.fst).Pairwise (· < ·) := by
  rw [signatures, List.pairwise_map, List.pairwise_filterMap]
  refine (b.under_ascending v.pre).imp fun {k k'} hlt => ?_
  rintro ⟨n, d⟩ hx ⟨n', d'⟩ hx'
  have hk := Version.path_of_fileOf (signatureAt_eq_some.mp hx).1
  have hk' := Version.path_of_fileOf (signatureAt_eq_some.mp hx').1
  rw [← hk, ← hk', String.lt_iff_toList_lt] at hlt
  simp only [Version.path, Artifact.name, String.toList_append] at hlt
  exact String.lt_iff_toList_lt.mpr (lt_of_append_lt_append hlt)

theorem mem_signatures_names {v : Version} {n : String} :
    n ∈ (b.signatures v).map Prod.fst ↔
      ∃ k ∈ b.under v.pre, v.fileOf k = .ok (some (.signature n)) := by
  simp only [List.mem_map, Prod.exists, exists_and_right, exists_eq_right]
  constructor
  · rintro ⟨d, hd⟩
    obtain ⟨k, hk, hn, -⟩ := mem_signatures.mp hd
    exact ⟨k, hk, hn⟩
  · rintro ⟨k, hk, hn⟩
    obtain ⟨d, hd⟩ := Option.isSome_iff_exists.mp (mem_keys.mp (mem_under.mp hk).1)
    exact ⟨d, mem_signatures.mpr ⟨k, hk, hn, hd⟩⟩

theorem signerNames_of_files {v : Version} {files : List Artifact} (h : b.files v = .ok files) :
    signerNames files = (b.signatures v).map Prod.fst := by
  obtain ⟨hasc, hmem⟩ := collect_eq_ok v.artifactOf (b.under v.pre) h List.Pairwise.nil
  have hnames : (signerNames files).Pairwise (· < ·) := by
    rw [signerNames, List.pairwise_filterMap]
    refine hasc.imp fun {a a'} hlt => ?_
    cases a <;> cases a' <;> intro m hm m' hm' <;>
      simp only [reduceCtorEq, Option.some.injEq] at hm hm'
    subst hm hm'
    exact compare_lt_iff_lt.mp hlt
  refine hnames.eq_of_mem_iff (signatures_ascending v) fun n => ?_
  have hsig : n ∈ signerNames files ↔ Artifact.signature n ∈ files := by
    simp only [signerNames, List.mem_filterMap]
    constructor
    · rintro ⟨a, ha, hn⟩
      cases a <;> simp_all
    · exact fun h => ⟨_, h, rfl⟩
  rw [hsig, hmem, mem_signatures_names]
  simp only [List.not_mem_nil, false_or, Version.artifactOf]
  refine exists_congr fun k => and_congr_right fun _ => ?_
  split <;> simp_all

theorem files_ascending {v : Version} {files : List Artifact} (h : b.files v = .ok files) :
    files.Pairwise (Artifact.compare · · = .lt) :=
  (collect_eq_ok v.artifactOf (b.under v.pre) h List.Pairwise.nil).1

theorem mem_files {v : Version} {files : List Artifact} {a : Artifact} (h : b.files v = .ok files)
    (hvalid : validComponent a.name = true) (hcanon : Artifact.ofName a.name = a) :
    a ∈ files ↔ (b.get? (v.path a)).isSome := by
  have hfile {k : String} {o : Option Artifact} : v.artifactOf k = .ok o ↔ v.fileOf k = .ok o := by
    unfold Version.artifactOf
    split <;> simp_all
  rw [(collect_eq_ok v.artifactOf (b.under v.pre) h List.Pairwise.nil).2 a]
  simp only [List.not_mem_nil, false_or, hfile]
  constructor
  · rintro ⟨k, hk, hka⟩
    rw [Version.path_of_fileOf hka, ← mem_keys]
    exact (mem_under.mp hk).1
  · intro hs
    have hpre : v.pre.isPrefixOf (v.path a) := by
      simp [isPrefixOf_iff, Version.path]
    have hk : v.path a ∈ b.under v.pre := mem_under.mpr ⟨mem_keys.mpr hs, hpre⟩
    obtain ⟨o, ho⟩ := collect_ok_of_mem v.artifactOf h hk
    exact ⟨_, hk, by rw [← hfile, ho, Version.fileOf_path hvalid hcanon (hfile.mp ho)]⟩

theorem head?_files {v : Version} {files : List Artifact} (h : b.files v = .ok files)
    (hu : (b.get? (v.path .unsigned)).isSome) : files.head? = some .unsigned := by
  have hmem : Artifact.unsigned ∈ files := (mem_files h (by decide) (by decide)).mpr hu
  cases files with
  | nil => cases hmem
  | cons a rest =>
    rcases List.mem_cons.mp hmem with rfl | hrest
    · rfl
    · have hlt := List.rel_of_pairwise_cons (files_ascending h) hrest
      cases a <;> simp [Artifact.compare] at hlt ⊢

end Blobs

namespace Op

variable {ρ τ β : Type} (fate : StoreCall → ρ → Fate × ρ) (ch : ChainAnswer τ)

theorem exec_get_bind (p : String) (f : (StoreCall.get p).Reply → Op β) (w : Scene (Lossy ρ) τ) :
    exec (Lossy.answer fate) ch (store (.get p) >>= f) w =
      exec (Lossy.answer fate) ch (f (w.store.blobs.get? p))
        { w with log := w.log ++ [⟨.store (.get p), .ok (w.store.blobs.get? p)⟩] } :=
  exec_store_bind_ok _ _ rfl

theorem exec_listPrefix_bind (pre : String) (f : (StoreCall.listPrefix pre).Reply → Op β) (w : Scene (Lossy ρ) τ) :
    exec (Lossy.answer fate) ch (store (.listPrefix pre) >>= f) w =
      exec (Lossy.answer fate) ch (f (w.store.blobs.under pre))
        { w with log := w.log ++ [⟨.store (.listPrefix pre), .ok (w.store.blobs.under pre)⟩] } :=
  (exec_store_bind_ok _ _ rfl).trans (by rw [Blobs.keysFrom_eq_under]; rfl)

theorem exec_listVersions (q : Queue) (w : Scene (Lossy ρ) τ) :
    exec (Lossy.answer fate) ch (listVersions q) w =
      (.ok (w.store.blobs.versions q),
        { w with log := w.log ++ [⟨.store (.listPrefix q.pre), .ok (w.store.blobs.under q.pre)⟩] }) := by
  rw [listVersions, exec_listPrefix_bind]
  refine exec_foldlM _ _ _ _ (fun acc k w => ?_) _ _ _
  unfold collectStep Queue.versionOf
  cases q.placement k with
  | error e => rfl
  | ok pl => cases pl <;> rfl

theorem exec_listFiles (v : Version) (w : Scene (Lossy ρ) τ) :
    exec (Lossy.answer fate) ch (listFiles v) w =
      (.ok (w.store.blobs.files v),
        { w with log := w.log ++ [⟨.store (.listPrefix v.pre), .ok (w.store.blobs.under v.pre)⟩] }) := by
  rw [listFiles, exec_listPrefix_bind]
  refine exec_foldlM _ _ _ _ (fun acc k w => ?_) _ _ _
  unfold collectStep Version.artifactOf
  cases v.fileOf k with
  | error e => rfl
  | ok a => cases a <;> rfl

theorem exec_fetch (v : Version) (a : Artifact) (w : Scene (Lossy ρ) τ) :
    exec (Lossy.answer fate) ch (fetch v a) w =
      (.ok (w.store.blobs.fetch v a), { w with log := w.log ++
        [⟨.store (.get (v.path a)), .ok (w.store.blobs.get? (v.path a))⟩] }) := by
  rw [fetch, exec_get_bind]
  unfold Blobs.fetch
  cases w.store.blobs.get? (v.path a) <;> rfl

/-- An operation that only reads a memory store and means `f`: in every world whose store is a
memory store, whatever becomes of writes, it gives `f` of the objects, changes nothing, and sends
only reads. -/
def ReadsOnly {α : Type} (op : Op α) (f : Blobs → Except Fault α) : Prop :=
  ∀ (ρ τ : Type) (fate : StoreCall → ρ → Fate × ρ) (ch : ChainAnswer τ) (w : Scene (Lossy ρ) τ),
    ∃ reads : List Answered, (∀ e ∈ reads, e.1.isRead) ∧
      exec (Lossy.answer fate) ch op w = (.ok (f w.store.blobs), { w with log := w.log ++ reads })

namespace ReadsOnly

variable {α γ : Type}

theorem pure (a : α) : ReadsOnly (Pure.pure a) fun _ => Pure.pure a :=
  fun _ _ _ _ w => ⟨[], by simp, by simp; rfl⟩

theorem throw (e : Fault) : ReadsOnly (MonadExcept.throw e : Op α) fun _ => MonadExcept.throw e :=
  fun _ _ _ _ w => ⟨[], by simp, by simp⟩

theorem bind {x : Op α} {g : α → Op γ} {f : Blobs → Except Fault α}
    {h : α → Blobs → Except Fault γ} (hx : ReadsOnly x f) (hg : ∀ a, ReadsOnly (g a) (h a)) :
    ReadsOnly (x >>= g) fun b => f b >>= fun a => h a b := by
  intro ρ τ fate ch w
  obtain ⟨reads, hreads, hrun⟩ := hx ρ τ fate ch w
  cases hf : f w.store.blobs with
  | error e =>
    rw [hf] at hrun
    exact ⟨reads, hreads, (exec_bind_error _ _ hrun).trans (by simp only [hf]; rfl)⟩
  | ok a =>
    rw [hf] at hrun
    obtain ⟨reads', hreads', hrun'⟩ := hg a ρ τ fate ch { w with log := w.log ++ reads }
    refine ⟨reads ++ reads', ?_, (exec_bind_ok _ _ hrun).trans ?_⟩
    · intro e he
      rcases List.mem_append.mp he with he | he
      · exact hreads e he
      · exact hreads' e he
    · rw [hrun']
      simp only [hf, List.append_assoc]
      rfl

theorem throw_bind (e : Fault) (g : α → Op γ) (h : α → Blobs → Except Fault γ) :
    ReadsOnly (MonadExcept.throw e >>= g) fun b => MonadExcept.throw e >>= fun a => h a b :=
  fun _ _ _ _ w => ⟨[], by simp, (exec_bind_error _ _ (exec_throw _ _ e w)).trans (by simp)⟩

theorem ite (c : Prop) [Decidable c] {x y : Op α} {f g : Blobs → Except Fault α}
    (hx : ReadsOnly x f) (hy : ReadsOnly y g) :
    ReadsOnly (if c then x else y) fun b => if c then f b else g b := by
  by_cases hc : c
  · simpa [hc] using hx
  · simpa [hc] using hy

theorem mapM {l : List γ} {g : γ → Op α} {h : γ → Blobs → Except Fault α}
    (hg : ∀ a, ReadsOnly (g a) (h a)) :
    ReadsOnly (l.mapM g) fun b => l.mapM fun a => h a b := by
  induction l with
  | nil =>
    simp only [List.mapM_nil]
    exact ReadsOnly.pure []
  | cons a l ih =>
    simp only [List.mapM_cons]
    exact bind (hg a) fun x => bind ih fun xs => ReadsOnly.pure (x :: xs)

theorem listVersions (q : Queue) : ReadsOnly (listVersions q) (·.versions q) :=
  fun _ _ fate ch w => ⟨_, by simp [Request.isRead, StoreCall.isRead], exec_listVersions fate ch q w⟩

theorem listFiles (v : Version) : ReadsOnly (listFiles v) (·.files v) :=
  fun _ _ fate ch w => ⟨_, by simp [Request.isRead, StoreCall.isRead], exec_listFiles fate ch v w⟩

theorem fetch (v : Version) (a : Artifact) : ReadsOnly (fetch v a) (·.fetch v a) :=
  fun _ _ fate ch w => ⟨_, by simp [Request.isRead, StoreCall.isRead], exec_fetch fate ch v a w⟩

end ReadsOnly

end Op

end Quorum
