import Quorum.Proofs.Mirror
import Quorum.Coordinate.Rehearsal

/-!
# The store kept as files answers as the memory store

A listing walks the directories below the root depth first and sorts what it finds; over a mirror
it finds each key once, so it lists exactly the memory store's keys. With the calls of the mirror,
a run of calls on a root yet to be made gets the replies of a memory store that starts empty, when
every key fits under the root and none lies above another.

A key with a segment named as a partial file is outside that: the store writes it and reads it
back, but a listing passes over it.
-/

namespace Quorum

def StoreCall.key? : StoreCall → Option String
  | .get k | .put k _ | .delete k | .contains k => some k
  | .listAll | .listPrefix _ => none

/-- The replies a store gives to calls made one after another, each beside its call. -/
def StoreAnswer.replies {σ : Type} (answer : StoreAnswer σ) :
    List StoreCall → σ → List ((c : StoreCall) × Except StoreError c.Reply)
  | [], _ => []
  | c :: cs, s => ⟨c, (answer c s).1⟩ :: replies answer cs (answer c s).2

namespace Directory

open FileTree

section Listing

/-- The list holds, once each, the keys of the store whose segments start with `rel`. -/
def ListsBelow (b : Blobs) (rel l : List String) : Prop :=
  l.Nodup ∧ ∀ x, x ∈ l ↔ x ∈ b.keys ∧ rel <+: segments x

theorem keyText_deeper {pre : String} {rel : List String}
    (hpre : ∀ name, (pre ++ name).toList = ['/'].intercalate ((rel ++ [name]).map String.toList))
    (name name' : String) :
    (pre ++ name ++ "/" ++ name').toList =
      ['/'].intercalate ((rel ++ [name] ++ [name']).map String.toList) :=
  calc (pre ++ name ++ "/" ++ name').toList
      = (pre ++ name).toList ++ '/' :: name'.toList := by simp
    _ = ['/'].intercalate ((rel ++ [name]).map String.toList) ++ '/' :: name'.toList := by
      rw [hpre name]
    _ = ['/'].intercalate ((rel ++ [name]).map String.toList ++ [name'.toList]) :=
      (intercalate_concat (by simp) _).symm
    _ = ['/'].intercalate ((rel ++ [name] ++ [name']).map String.toList) := by simp

theorem eq_of_prefix_concat {rel s : List String} {a c : String} (ha : rel ++ [a] <+: s)
    (hc : rel ++ [c] <+: s) : a = c := by
  have hlen : (rel ++ [a]).length = (rel ++ [c]).length := by simp
  have heq := (List.prefix_of_prefix_length_le ha hc hlen.le).eq_of_length hlen
  simpa using heq

theorem listsBelow_flatten {b : Blobs} {rel : List String} {es : List (String × FileKind)}
    {rs : List (List String)} (h : List.Forall₂ (fun e r => ListsBelow b (rel ++ [e.1]) r) es rs)
    (hnames : es.Pairwise fun e e' => e.1 ≠ e'.1) :
    rs.flatten.Nodup ∧ ∀ x, x ∈ rs.flatten ↔ x ∈ b.keys ∧ ∃ e ∈ es, rel ++ [e.1] <+: segments x := by
  induction h with
  | nil => simp
  | @cons e r es rs her _ ih =>
    obtain ⟨hnodup, hmem⟩ := ih (List.pairwise_cons.mp hnames).2
    refine ⟨?_, fun x => ?_⟩
    · rw [List.flatten_cons, List.nodup_append]
      refine ⟨her.1, hnodup, fun x hx y hy hxy => ?_⟩
      subst hxy
      obtain ⟨-, e', he', hpre'⟩ := (hmem x).mp hy
      exact (List.pairwise_cons.mp hnames).1 e' he'
        (eq_of_prefix_concat ((her.2 x).mp hx).2 hpre')
    · rw [List.flatten_cons, List.mem_append, her.2, hmem]
      constructor
      · rintro (⟨hx, hpre⟩ | ⟨hx, e', he', hpre⟩)
        · exact ⟨hx, e, List.mem_cons_self, hpre⟩
        · exact ⟨hx, e', List.mem_cons_of_mem e he', hpre⟩
      · rintro ⟨hx, e', he', hpre⟩
        rcases List.mem_cons.mp he' with rfl | he'
        · exact .inl ⟨hx, hpre⟩
        · exact .inr ⟨hx, e', he', hpre⟩

theorem mergeSort_eq_keys {b : Blobs} {l : List String} (hnodup : l.Nodup)
    (hmem : ∀ x, x ∈ l ↔ x ∈ b.keys) : l.mergeSort (fun x y => decide (x ≤ y)) = b.keys := by
  have hkeys : b.keys.Nodup := b.keys_ascending.imp ne_of_lt
  have hperm := (List.mergeSort_perm l fun x y => decide (x ≤ y)).trans ((List.perm_ext_iff_of_nodup hnodup hkeys).mpr hmem)
  have hsorted : (l.mergeSort fun x y => decide (x ≤ y)).Pairwise (· ≤ ·) :=
    (List.pairwise_mergeSort (fun _ _ _ h₁ h₂ => by simp_all; exact le_trans h₁ h₂)
      (fun x y => by simpa using le_total x y) l).imp (by simp)
  exact hperm.eq_of_pairwise (fun _ _ _ _ h₁ h₂ => le_antisymm h₁ h₂) hsorted
    (b.keys_ascending.imp le_of_lt)

variable {root K : List String} {b : Blobs} {t : FileTree}
variable (hM : Mirrors root K b t)
include hM

theorem Mirrors.entry_below {rel : List String} {name : String} (hn : t.lookup (root ++ rel ++ [name]) ≠ none) :
    ∃ k ∈ b.keys, rel ++ [name] <+: segments k := by
  have hlen : (root ++ rel ++ [name]).length ≠ root.length := by simp
  obtain ⟨k, hk, hpre⟩ := hM.covered _ (by simp [List.append_assoc])
    (fun h => hlen (congrArg List.length h)) hn
  exact ⟨k, hk, (List.prefix_append_right_inj root).mp (by simpa [List.append_assoc] using hpre)⟩

theorem Mirrors.entry_file {rel : List String} {name : String} {d : ByteArray}
    (hn : t.lookup (root ++ rel ++ [name]) = some (.file d)) :
    ∃ k ∈ b.keys, segments k = rel ++ [name] := by
  obtain ⟨k, hk, hpre⟩ := hM.entry_below (show t.lookup (root ++ rel ++ [name]) ≠ none by rw [hn]; simp)
  refine ⟨k, hk, ?_⟩
  by_contra hne
  have hdir := hM.dirs k hk (root ++ rel ++ [name]) (by simp [List.append_assoc])
    (by simpa [List.append_assoc] using hpre) (by simpa [List.append_assoc] using Ne.symm hne)
  rw [hn] at hdir
  cases hdir

theorem Mirrors.entry_dir {rel : List String} {name : String}
    (hn : t.lookup (root ++ rel ++ [name]) = some .dir) :
    ∃ k ∈ b.keys, rel ++ [name] <+: segments k ∧ rel ++ [name] ≠ segments k := by
  obtain ⟨k, hk, hpre⟩ := hM.entry_below (show t.lookup (root ++ rel ++ [name]) ≠ none by rw [hn]; simp)
  refine ⟨k, hk, hpre, fun heq => ?_⟩
  obtain ⟨d, hd⟩ := Option.isSome_iff_exists.mp (Blobs.mem_keys.mp hk)
  have hfile := hM.files k d hd
  rw [← heq, ← List.append_assoc, hn] at hfile
  cases hfile

theorem Mirrors.entry_of_key {rel : List String} {x : String}
    (hdir : t.lookup (root ++ rel) = some .dir) (hx : x ∈ b.keys) (hpre : rel <+: segments x) :
    ∃ name n, (name, n) ∈ t.children (root ++ rel) ∧ rel ++ [name] <+: segments x := by
  obtain ⟨d, hd⟩ := Option.isSome_iff_exists.mp (Blobs.mem_keys.mp hx)
  obtain ⟨name, n, hn, hname⟩ := entry_toward_file (hM.files x d hd)
    (fun q hq => hM.dirs x hx q ((List.prefix_append root rel).trans hq)) hdir
    ((List.prefix_append_right_inj root).mpr hpre)
  refine ⟨name, n, hn, (List.prefix_append_right_inj root).mp ?_⟩
  rwa [← List.append_assoc]

theorem Mirrors.listsBelow_entries {rel : List String} (hdir : t.lookup (root ++ rel) = some .dir)
    {rs : List (List String)} (hrs : List.Forall₂ (fun e r => ListsBelow b (rel ++ [e.1]) r)
      ((t.children (root ++ rel)).map fun e => (e.1, e.2.kind)) rs) :
    ListsBelow b rel rs.flatten := by
  have hnames : ((t.children (root ++ rel)).map fun e => (e.1, e.2.kind)).Pairwise
      fun e e' => e.1 ≠ e'.1 :=
    List.Pairwise.map _ (fun _ _ h => h) children_pairwise_ne
  obtain ⟨hnodup, hmem⟩ := listsBelow_flatten hrs hnames
  refine ⟨hnodup, fun x => ?_⟩
  rw [hmem]
  constructor
  · rintro ⟨hx, e, -, hbelow⟩
    exact ⟨hx, (List.prefix_append _ _).trans hbelow⟩
  · rintro ⟨hx, hbelow⟩
    obtain ⟨name, n, hn, hname⟩ := hM.entry_of_key hdir hx hbelow
    exact ⟨hx, (name, n.kind), List.mem_map.mpr ⟨(name, n), hn, rfl⟩, hname⟩

variable (hK : Apart root K)
include hK

theorem Mirrors.filter_entries (rel : List String) :
    ((t.children (root ++ rel)).map fun e => (e.1, e.2.kind)).filter (fun e => !isPartial e.1) =
      (t.children (root ++ rel)).map fun e => (e.1, e.2.kind) := by
  refine List.filter_eq_self.mpr fun e he => ?_
  obtain ⟨⟨name, n⟩, hmem, rfl⟩ := List.mem_map.mp he
  obtain ⟨k, hk, hpre⟩ := hM.entry_below (show t.lookup (root ++ rel ++ [name]) ≠ none by
    rw [mem_children.mp hmem]
    simp)
  have hname : name ∈ segments k := hpre.subset (by simp)
  simp [(hK.fits k (hM.keys k hk)).whole name hname]

theorem Mirrors.listsBelow_key {rel : List String} {name pre : String} {k : String}
    (hk : k ∈ b.keys) (hseg : segments k = rel ++ [name])
    (hpre : (pre ++ name).toList = ['/'].intercalate ((rel ++ [name]).map String.toList)) :
    ListsBelow b (rel ++ [name]) [pre ++ name] := by
  have hkey : pre ++ name = k :=
    String.toList_inj.mp (hpre.trans (toList_of_segments hseg).symm)
  refine ⟨List.nodup_singleton _, fun x => ?_⟩
  rw [List.mem_singleton, hkey]
  constructor
  · rintro rfl
    exact ⟨hk, hseg ▸ List.prefix_refl _⟩
  · rintro ⟨hx, hpre'⟩
    rw [← hseg] at hpre'
    exact (hK.eq_of_prefix (hM.keys k hk) (hM.keys x hx)
      ((List.prefix_append_right_inj root).mpr hpre')).symm

theorem Mirrors.dir_or_missing (hroot : PlainPath root) {rel : List String}
    (hrel : rel = [] ∨ ∃ k ∈ b.keys, rel <+: segments k ∧ rel ≠ segments k) :
    (PlainPath (root ++ rel) ∧ t.DirsAbove (root ++ rel) ∧ t.lookup (root ++ rel) = some .dir) ∨
      (t.Missing (root ++ rel) ∧ rel = [] ∧ b.keys = []) := by
  rcases hrel with rfl | ⟨k, hk, hpre, hne⟩
  · rw [List.append_nil]
    have hnofile : t.NoFileAbove root := fun q d hq _ hf => by
      rcases hM.ancestors q hq with h | ⟨h, -⟩ <;> rw [hf] at h <;> cases h
    rcases dirsAbove_or_noEntry hroot hnofile with hd | hno
    · rcases hM.ancestors root (List.prefix_refl _) with h | ⟨h, hnil⟩
      · exact .inl ⟨hroot, hd, h⟩
      · exact .inr ⟨.inr ⟨resolve_of_dirsAbove hroot hd, h⟩, rfl, hnil⟩
    · -- a directory above the root is missing, which only an empty store allows
      refine .inr ⟨.inl hno, rfl, ?_⟩
      by_contra hne
      obtain ⟨k, hk⟩ := List.exists_mem_of_ne_nil _ hne
      have hd : t.DirsAbove root := fun q hq _ =>
        (hM.ancestors q hq).resolve_right fun ⟨_, h⟩ => by simp [h] at hk
      rw [resolve_of_dirsAbove hroot hd] at hno
      cases hno
  · have hprefix : root ++ rel <+: root ++ segments k := (List.prefix_append_right_inj root).mpr hpre
    have hne' : root ++ rel ≠ root ++ segments k := fun h => hne (List.append_cancel_left h)
    have hd := hM.dirsAbove hk
    refine .inl ⟨(hK.fits k (hM.keys k hk)).plain.of_isPrefix (by simp [hroot.1]) hprefix,
      fun q hq hqne => hd q (hq.trans hprefix) fun h => hqne ?_, hd _ hprefix hne'⟩
    subst h
    exact List.IsPrefix.eq_of_length hq (le_antisymm hq.length_le hprefix.length_le)

theorem Mirrors.run_collect (hroot : PlainPath root) (fuel : Nat) (rel : List String) (pre : String)
    (hrel : rel = [] ∨ ∃ k ∈ b.keys, rel <+: segments k ∧ rel ≠ segments k)
    (hpre : ∀ name, (pre ++ name).toList = ['/'].intercalate ((rel ++ [name]).map String.toList))
    (hempty : pre.isEmpty = true ↔ rel = [])
    (hfuel : ∀ k ∈ b.keys, rel <+: segments k → (segments k).length < rel.length + fuel) :
    ∃ l, Program.run FileTree.answer (collect fuel (root ++ rel) pre).run t = (.ok (.ok l), t) ∧
      ListsBelow b rel l := by
  induction fuel generalizing rel pre with
  | zero =>
    refine ⟨[], rfl, List.nodup_nil, fun x => ⟨fun h => absurd h List.not_mem_nil, ?_⟩⟩
    rintro ⟨hx, hpre'⟩
    have := hfuel x hx hpre'
    have := hpre'.length_le
    omega
  | succ fuel ih =>
    rw [collect, run_lift_call_bind]
    rcases hM.dir_or_missing hK hroot hrel with ⟨hplain, hd, hdir⟩ | ⟨hmiss, rfl, hnil⟩
    · rw [answer_readDir hplain hd hdir]
      dsimp only
      rw [hM.filter_entries hK rel]
      refine run_mapM_bind (R := fun e r => ListsBelow b (rel ++ [e.1]) r) ?_ ?_
      · rintro ⟨name, kind⟩ he
        obtain ⟨⟨name, n⟩, hmem, heq⟩ := List.mem_map.mp he
        obtain ⟨rfl, rfl⟩ := Prod.mk.inj heq
        have hlook := mem_children.mp hmem
        cases n with
        | file d =>
          obtain ⟨k, hk, hseg⟩ := hM.entry_file hlook
          exact ⟨[pre ++ name], rfl, hM.listsBelow_key hK hk hseg (hpre name)⟩
        | dir =>
          obtain ⟨k, hk, hbelow, hne⟩ := hM.entry_dir hlook
          have hfuel' : ∀ k' ∈ b.keys, rel ++ [name] <+: segments k' →
              (segments k').length < (rel ++ [name]).length + fuel := by
            intro k' hk' hbelow'
            have := hfuel k' hk' ((List.prefix_append _ _).trans hbelow')
            simp only [List.length_append, List.length_singleton]
            omega
          obtain ⟨r, hr, hlists⟩ := ih (rel ++ [name]) (pre ++ name ++ "/")
            (.inr ⟨k, hk, hbelow, hne⟩) (keyText_deeper hpre name) (by simp) hfuel'
          rw [← List.append_assoc] at hr
          exact ⟨r, hr, hlists⟩
      · intro rs hrs
        have hmarker : (((t.children (root ++ rel)).map fun e => (e.1, e.2.kind)).isEmpty &&
            !pre.isEmpty) = false := by
          rcases hrel with rfl | ⟨k, hk, hbelow, -⟩
          · simp [hempty.mpr rfl]
          · obtain ⟨name, n, hn, -⟩ := hM.entry_of_key hdir hk hbelow
            simp [List.ne_nil_of_mem hn]
        refine ⟨rs.flatten, ?_, hM.listsBelow_entries hdir hrs⟩
        simp only [hmarker, Bool.false_eq_true, ↓reduceIte, List.append_nil]
        rfl
    · -- a missing root lists as empty
      rw [answer_readDir_missing (by simpa using hroot) hmiss]
      dsimp only
      rw [if_pos (hempty.mpr rfl)]
      refine ⟨[], rfl, List.nodup_nil, fun x => ?_⟩
      simp [hnil]

theorem Mirrors.run_listAll (hroot : PlainPath root) :
    Program.run FileTree.answer (listAll root).run t = (.ok (.ok b.keys), t) := by
  have hfuel : ∀ k ∈ b.keys, [] <+: segments k →
      (segments k).length < ([] : List String).length + depthLimit := by
    intro k hk _
    have hlen := length_le_textLength (root ++ segments k)
    have hfit := (hK.fits k (hM.keys k hk)).plain.2.2
    simp only [List.length_append] at hlen
    simp only [List.length_nil, depthLimit, Nat.zero_add]
    exact lt_of_le_of_lt (by omega) (lt_of_le_of_lt hlen hfit)
  obtain ⟨l, hrun, hnodup, hmem⟩ :=
    hM.run_collect hK hroot depthLimit [] "" (.inl rfl) (fun name => by simp) (by simp) hfuel
  rw [List.append_nil] at hrun
  unfold listAll
  rw [run_bind_ok hrun, ← mergeSort_eq_keys hnodup fun x => by simpa using hmem x]
  rfl

theorem Mirrors.answer_listAll (hroot : PlainPath root) :
    Directory.answer root .listAll t = (.ok b.keys, t) :=
  answer_of_run (hM.run_listAll hK hroot)

theorem Mirrors.answer_listPrefix (hroot : PlainPath root) (pre : String) :
    Directory.answer root (.listPrefix pre) t = (.ok (b.keysFrom pre), t) := by
  refine answer_of_run ?_
  show Program.run FileTree.answer (do return (← listAll root).filter (pre.isPrefixOf ·)).run t = _
  rw [run_bind_ok (hM.run_listAll hK hroot), Blobs.keysFrom_eq_under]
  rfl

end Listing

section Refinement

variable {root K : List String}

theorem Mirrors.step {b : Blobs} {t : FileTree} (hroot : PlainPath root) (hK : Apart root K)
    (hM : Mirrors root K b t) (c : StoreCall) (hc : ∀ k ∈ c.key?, k ∈ K) :
    (Directory.answer root c t).1 = (Blobs.answer c b).1 ∧
      Mirrors root K (Blobs.answer c b).2 (Directory.answer root c t).2 := by
  cases c with
  | get k => rw [hM.answer_get hK (hc k rfl)]; exact ⟨rfl, hM⟩
  | contains k => rw [hM.answer_contains hK (hc k rfl)]; exact ⟨rfl, hM⟩
  | put k d =>
    obtain ⟨t', hans, hlook⟩ := hM.answer_put hK (hc k rfl) d
    rw [hans]
    exact ⟨rfl, hM.put hK (hc k rfl) hlook⟩
  | delete k =>
    obtain ⟨t', hans, hM'⟩ := hM.answer_delete hK (hc k rfl)
    rw [hans]
    exact ⟨rfl, hM'⟩
  | listAll => rw [hM.answer_listAll hK hroot]; exact ⟨rfl, hM⟩
  | listPrefix pre => rw [hM.answer_listPrefix hK hroot pre]; exact ⟨rfl, hM⟩

theorem Mirrors.replies {b : Blobs} {t : FileTree} (hroot : PlainPath root) (hK : Apart root K)
    (hM : Mirrors root K b t) (calls : List StoreCall) (hc : ∀ c ∈ calls, ∀ k ∈ c.key?, k ∈ K) :
    StoreAnswer.replies (Directory.answer root) calls t = StoreAnswer.replies Blobs.answer calls b := by
  induction calls generalizing b t with
  | nil => rfl
  | cons c cs ih =>
    -- one call answered alike, and the mirror carried to the rest of the run
    obtain ⟨hreply, hM'⟩ := hM.step hroot hK c (hc c List.mem_cons_self)
    simp only [StoreAnswer.replies, hreply]
    rw [ih hM' fun c' hc' => hc c' (List.mem_cons_of_mem c hc')]

/-- A tree where the store under `root` is yet to be made: no file above the root, nothing at or
below it. -/
def Unborn (root : List String) (t : FileTree) : Prop :=
  (∀ q d, q <+: root → t.lookup q ≠ some (.file d)) ∧ ∀ q, root <+: q → t.lookup q = none

theorem mirrors_of_unborn {t : FileTree} (h : Unborn root t) : Mirrors root K Blobs.empty t where
  keys k hk := by simp [Blobs.keys_empty] at hk
  ancestors q hq := by
    rcases hn : t.lookup q with _ | n
    · exact .inr ⟨rfl, Blobs.keys_empty⟩
    · cases n with
      | dir => exact .inl rfl
      | file d => exact absurd hn (h.1 q d hq)
  files k d hg := by simp [Blobs.get?_empty] at hg
  dirs k hk := by simp [Blobs.keys_empty] at hk
  covered q hq _ hne := absurd (h.2 q hq) hne

/-- A store kept as files under a root that is yet to be made answers every run of calls as a
memory store that starts empty does, when every key fits under the root and none lies above
another. -/
theorem answers_as_memory_store (hroot : PlainPath root) {t : FileTree} (ht : Unborn root t)
    (calls : List StoreCall) (hfits : ∀ c ∈ calls, ∀ k ∈ c.key?, Fits root k)
    (hfree : SegmentPrefixFree (calls.filterMap StoreCall.key?)) :
    StoreAnswer.replies (Directory.answer root) calls t =
      StoreAnswer.replies Blobs.answer calls Blobs.empty := by
  have hK : Apart root (calls.filterMap StoreCall.key?) := by
    refine ⟨fun k hk => ?_, hfree⟩
    obtain ⟨c, hc, hck⟩ := List.mem_filterMap.mp hk
    exact hfits c hc k hck
  exact (mirrors_of_unborn ht).replies hroot hK calls
    fun c hc k hk => List.mem_filterMap.mpr ⟨c, hc, hk⟩

/-- Two objects put under a root whose parent alone exists, one of them deleted, then read and
listed: each reply is the memory store's. -/
theorem fresh_directory_answers_as_memory_store :
    StoreAnswer.replies (Directory.answer ["work", "store"])
        [.put "a/b" "x".toUTF8, .put "a/c" "y".toUTF8, .delete "a/b", .get "a/b", .contains "a/c",
          .listAll]
        ⟨(∅ : Std.ExtTreeMap (List String) Node compare).insert ["work"] .dir⟩ =
      StoreAnswer.replies Blobs.answer
        [.put "a/b" "x".toUTF8, .put "a/c" "y".toUTF8, .delete "a/b", .get "a/b", .contains "a/c",
          .listAll]
        Blobs.empty := by
  have hlook : ∀ q, FileTree.lookup
      ⟨(∅ : Std.ExtTreeMap (List String) Node compare).insert ["work"] .dir⟩ q =
        if q = ["work"] ∨ q = [] then some .dir else none := by
    intro q
    rw [lookup_insert (by simp)]
    rcases eq_or_ne q [] with rfl | hq
    · simp
    · simp [lookup_of_ne_nil hq, hq]
  refine answers_as_memory_store (by decide +kernel) ⟨fun q d _ => ?_, fun q hq => ?_⟩ _
    (by decide +kernel) (by decide +kernel)
  · rw [hlook]
    split <;> simp
  · have hlen := hq.length_le
    rw [hlook, if_neg]
    rintro (rfl | rfl) <;> simp at hlen

/-- A key named as a partial file is kept but not listed: put into a fresh directory store, a read
finds it while the store shows no object, where a memory store shows it. -/
theorem partial_named_key_unlisted :
    (Backing.answer (.put "a/b.cosign-partial" "hidden".toUTF8) Backing.freshDirectory).2.objects =
        [] ∧
      Option.map Option.isSome (Backing.answer (.get "a/b.cosign-partial")
        (Backing.answer (.put "a/b.cosign-partial" "hidden".toUTF8)
          Backing.freshDirectory).2).1.toOption = some true ∧
      (Backing.answer (.put "a/b.cosign-partial" "hidden".toUTF8) (.memory Blobs.empty)).2.objects =
        [("a/b.cosign-partial", "hidden".toUTF8)] :=
  ⟨by decide +kernel, by decide +kernel, by decide +kernel⟩

end Refinement

end Directory

end Quorum
