import Quorum.Proofs.Guarantees
import Quorum.Proofs.PathSegments

/-!
# Store keys stay inside the root

The store under `root` names the object at a key by the key's segments below the root, and refuses
a key with an empty, `.` or `..` segment (`Directory.resolve_below`). Reading, checking and
deleting a key therefore touch only paths strictly inside the root: the key's own path and, when
a deletion prunes, the emptied directories above it, never the root itself. Writing a key makes
the missing directories on the way down to its file, and that way starts above the root: the
first directory it tries to make is the parent of the file, and when that is missing it goes on
upwards, through the root and past it if the root is missing too. Listing keys only reads, and
every key listed under a prefix starts with it.
-/

namespace Quorum

/-- Whether a call only reads: the status of a path, the bytes of a file or the entries of a
directory. -/
def FsCall.IsRead : FsCall → Prop
  | .status _ | .readFile _ | .readDir _ => True
  | _ => False

def FsCall.Inside (root : List String) (c : FsCall) : Prop :=
  ∀ p ∈ c.paths, root <+: p ∧ root.length < p.length

theorem FsCall.inside_of_paths_eq {root p : List String} {c : FsCall} (hc : c.paths = [p])
    (h : root <+: p ∧ root.length < p.length) : c.Inside root := by
  intro q hq
  rw [hc, List.mem_singleton] at hq
  exact hq ▸ h

namespace Directory

theorem resolve_below (root : List String) (key : String) :
    resolve root key = .error (.invalidKey key) ∨
      ∃ rel, resolve root key = .ok (root ++ rel) ∧ rel ≠ [] ∧
        ∀ n ∈ rel, NormalName n := by
  generalize hrel : (if key.endsWith "/" then String.ofList key.toList.dropLast else key) = rel
  have hres : resolve root key =
      if (segments rel).any (fun s => s.isEmpty || s == "." || s == "..") then
        .error (.invalidKey key) else .ok (root ++ segments rel) := by
    rw [← hrel]
    rfl
  rw [hres]
  cases hany : (segments rel).any (fun s => s.isEmpty || s == "." || s == "..") with
  | true => exact .inl rfl
  | false =>
    refine .inr ⟨_, rfl, segments_ne_nil _, fun n hn => normalName_of_mem_segments hn ?_⟩
    exact Bool.eq_false_iff.mpr (List.any_eq_false.mp hany n hn)

theorem resolve_eq_ok {root : List String} {key : String} {file : List String}
    (h : resolve root key = .ok file) :
    ∃ rel, file = root ++ rel ∧ rel ≠ [] ∧ ∀ n ∈ rel, NormalName n := by
  rcases resolve_below root key with herr | ⟨rel, hok, hrel⟩
  · rw [h] at herr
    cases herr
  · rw [h] at hok
    cases hok
    exact ⟨rel, rfl, hrel⟩

end Directory

namespace Files

open Program

variable {R : (r : FileSystem.Request) → FileSystem.Reply r → Prop}

theorem isDir_guarantees (p : List String) :
    (isDir p).Guarantees R (fun c : FsCall => c = .status p) (fun _ => True) := by
  unfold isDir
  refine Guarantees.ask_bind rfl fun x _ => ?_
  rcases x with e | k
  · exact Guarantees.ret
  · cases k <;> exact Guarantees.ret

theorem createDirAll_calls (p : List String) :
    (createDirAll p).Guarantees R
      (fun c : FsCall => ∃ q, q <+: p ∧ (c = .mkdir q ∨ c = .status q)) (fun _ => True) := by
  induction p using Files.createDirAll.induct with
  | case1 =>
    rw [createDirAll]
    exact Guarantees.ret
  | case2 =>
    rw [createDirAll]
    exact Guarantees.ret
  | case3 p hnil hempty ih =>
    have hup : ∀ c : FsCall, (∃ q, q <+: p.dropLast ∧ (c = .mkdir q ∨ c = .status q)) →
        ∃ q, q <+: p ∧ (c = .mkdir q ∨ c = .status q) := by
      rintro c ⟨q, hq, hc⟩
      exact ⟨q, hq.trans <| List.dropLast_prefix p, hc⟩
    have hdir : (isDir p).Guarantees R
        (fun c : FsCall => ∃ q, q <+: p ∧ (c = .mkdir q ∨ c = .status q)) (fun _ => True) :=
      (isDir_guarantees p).mono (fun c hc => ⟨p, List.prefix_refl p, .inr hc⟩)
        (fun _ _ => trivial)
    rw [createDirAll, dif_neg hnil, if_neg hempty]
    refine Guarantees.ask_bind ?_ fun x _ => ?_
    · exact ⟨p, List.prefix_refl p, .inl rfl⟩
    -- after a failed make, the result depends only on whether `p` is a directory
    have hcheck : ∀ e : IoError, Guarantees R
        (fun c : FsCall => ∃ q, q <+: p ∧ (c = .mkdir q ∨ c = .status q)) (fun _ => True)
        (isDir p >>= fun b => if b = true then Pure.pure (Except.ok ()) else
          Pure.pure (Except.error e)) := fun e =>
      hdir.bind fun b _ => by split <;> exact Guarantees.ret
    split
    · exact Guarantees.ret
    · -- the parent is missing: it is made first, and `p` tried once more
      refine (ih.mono hup (fun _ _ => trivial)).bind fun y _ => ?_
      rcases y with e | _
      · exact Guarantees.ret
      · refine Guarantees.ask_bind ?_ fun z _ => ?_
        · exact ⟨p, List.prefix_refl p, .inl rfl⟩
        rcases z with e | _
        · exact hcheck e
        · exact Guarantees.ret
    · exact hcheck _

end Files

namespace Directory

open Program

variable {R : (r : FileSystem.Request) → FileSystem.Reply r → Prop}

theorem liftExcept_bind {α β : Type} {P : FsCall → Prop} {Q : Except StoreError β → Prop}
    (r : Except StoreError α) (f : α → Fs β)
    (hf : ∀ a, r = .ok a → (f a).run.Guarantees R P Q)
    (herr : ∀ e, Q (.error e)) : (get.liftExcept r >>= f).run.Guarantees R P Q := by
  cases r with
  | error e => exact .pure (herr e)
  | ok a => exact hf a rfl

theorem get_calls (root : List String) (key : String) :
    (get root key).run.Guarantees R
      (fun c : FsCall => ∃ file, resolve root key = .ok file ∧
        (c = .status file ∨ c = .readFile file))
      (fun _ => True) := by
  unfold get
  refine liftExcept_bind _ _ (fun file hfile => ?_) (fun _ => trivial)
  have hdir : (liftM (Files.isDir file) : Fs Bool).run.Guarantees R
      (fun c : FsCall => ∃ file, resolve root key = .ok file ∧
        (c = .status file ∨ c = .readFile file))
      (fun e => ∀ a, e = .ok a → True) :=
    Guarantees.except_liftM ((Files.isDir_guarantees file).mono
      (fun c hc => ⟨file, hfile, .inl hc⟩) (fun _ _ => trivial))
  split
  · exact Guarantees.except_bind hdir (fun _ _ => .pure trivial) (fun _ => trivial)
  · refine Guarantees.except_ask_bind ⟨file, hfile, .inr rfl⟩ fun x _ => ?_
    split
    · exact .pure trivial
    · exact .pure trivial
    · exact Guarantees.except_bind hdir (fun _ _ => by split <;> exact .pure trivial)
        (fun _ => trivial)

theorem backend_calls {α : Type} {P : FsCall → Prop} (context : String) (e : IoError) :
    (backend context e : Fs α).run.Guarantees R P (fun _ => True) :=
  .pure trivial

theorem attempt_calls (context : String) (c : FsCall) :
    (attempt context c).run.Guarantees R (fun c' : FsCall => c' = c) (fun _ => True) := by
  unfold attempt
  refine Guarantees.except_ask_bind rfl fun x _ => ?_
  rcases x with e | _
  · exact backend_calls context e
  · exact Guarantees.ret

theorem makeDirs_calls (context : String) (p : List String) :
    (makeDirs context p).run.Guarantees R
      (fun c : FsCall => ∃ q, q <+: p ∧ (c = .mkdir q ∨ c = .status q)) (fun _ => True) := by
  unfold makeDirs
  refine Guarantees.except_bind (Guarantees.except_liftM (Files.createDirAll_calls p))
    (fun x _ => ?_) (fun _ => trivial)
  rcases x with e | _
  · exact backend_calls context e
  · exact Guarantees.ret

theorem prune_calls (root dir : List String) :
    (prune root dir).Guarantees R
      (fun c : FsCall => ∃ d, c = .removeDir d ∧ root <+: d ∧ root.length < d.length)
      (fun _ => True) := by
  induction dir using Directory.prune.induct root with
  | case1 dir hstop =>
    rw [prune, dif_pos hstop]
    exact Guarantees.ret
  | case2 dir hgo ih =>
    rw [prune, dif_neg hgo]
    simp only [not_or, Bool.not_eq_true', Bool.not_eq_false, not_le] at hgo
    refine Guarantees.ask_bind ?_ fun x _ => ?_
    · exact ⟨dir, rfl, List.isPrefixOf_iff_prefix.mp hgo.2, hgo.1⟩
    rcases x with e | _
    · exact Guarantees.ret
    · exact ih

theorem contains_calls (root : List String) (key : String) :
    (contains root key).run.Guarantees R
      (fun c : FsCall => ∃ file, resolve root key = .ok file ∧ c = .status file)
      (fun _ => True) := by
  unfold contains
  refine liftExcept_bind _ _ (fun file hfile => ?_) (fun _ => trivial)
  refine Guarantees.except_ask_bind ⟨file, hfile, rfl⟩ fun x _ => ?_
  split
  · exact Guarantees.ret
  · exact Guarantees.ret
  · exact backend_calls _ _

theorem delete_calls (root : List String) (key : String) :
    (delete root key).run.Guarantees R
      (fun c : FsCall => ∃ file, resolve root key = .ok file ∧
        (c = .removeDir file ∨ c = .removeFile file ∨
          ∃ d, c = .removeDir d ∧ root <+: d ∧ root.length < d.length))
      (fun _ => True) := by
  unfold delete
  refine liftExcept_bind _ _ (fun file hfile => ?_) (fun _ => trivial)
  -- the pruning after a removal goes only through directories strictly below the root
  have hprune : (liftM (prune root file.dropLast) : Fs Unit).run.Guarantees R
      (fun c : FsCall => ∃ file, resolve root key = .ok file ∧
        (c = .removeDir file ∨ c = .removeFile file ∨
          ∃ d, c = .removeDir d ∧ root <+: d ∧ root.length < d.length)) (fun _ => True) :=
    (Guarantees.except_liftM (prune_calls root file.dropLast)).mono
      (fun _ hc => ⟨file, hfile, .inr (.inr hc)⟩) (fun _ _ => trivial)
  dsimp only
  split
  · refine Guarantees.except_ask_bind ⟨file, hfile, .inl rfl⟩ fun x _ => ?_
    split
    · exact hprune
    · exact Guarantees.ret
    · exact Guarantees.ret
  · refine Guarantees.except_ask_bind ⟨file, hfile, .inr (.inl rfl)⟩ fun x _ => ?_
    split
    · exact hprune
    · exact Guarantees.ret
    · exact backend_calls _ _

theorem put_calls (root : List String) (key : String) (data : ByteArray) :
    (put root key data).run.Guarantees R
      (fun c : FsCall => ∃ file, resolve root key = .ok file ∧
        ((∃ q, q <+: file ∧ (c = .mkdir q ∨ c = .status q)) ∨
          c = .writeFile (partialOf file) data ∨ c = .rename (partialOf file) file))
      (fun _ => True) := by
  unfold put
  refine liftExcept_bind _ _ (fun file hfile => ?_) (fun _ => trivial)
  refine Guarantees.except_ite (fun _ => ?_) (fun _ => ?_)
  · exact (makeDirs_calls _ file).mono (fun c hc => ⟨file, hfile, .inl hc⟩)
      (fun _ _ => trivial)
  · refine Guarantees.except_seq ?_ (fun _ => ?_) (fun _ => trivial)
    · refine (makeDirs_calls _ file.dropLast).mono (fun c hc => ?_) (fun _ _ => trivial)
      obtain ⟨q, hq, hc⟩ := hc
      exact ⟨file, hfile, .inl ⟨q, hq.trans <| List.dropLast_prefix file, hc⟩⟩
    refine Guarantees.except_seq ?_ (fun _ => ?_) (fun _ => trivial)
    · exact (attempt_calls _ (.writeFile (partialOf file) data)).mono
        (fun c hc => ⟨file, hfile, .inr (.inl hc)⟩) (fun _ _ => trivial)
    · exact (attempt_calls _ (.rename (partialOf file) file)).mono
        (fun c hc => ⟨file, hfile, .inr (.inr hc)⟩) (fun _ _ => trivial)

/-! ## Inside the root -/

theorem inside_append (root : List String) {rel : List String} (h : rel ≠ []) :
    root <+: root ++ rel ∧ root.length < (root ++ rel).length := by
  refine ⟨List.prefix_append root rel, ?_⟩
  rw [List.length_append]
  have := List.length_pos_iff.mpr h
  omega

theorem inside_of_resolve {root file : List String} {key : String}
    (h : resolve root key = .ok file) : root <+: file ∧ root.length < file.length := by
  obtain ⟨rel, rfl, hrel, -⟩ := resolve_eq_ok h
  exact inside_append root hrel

theorem partialOf_append (root : List String) {rel : List String} (h : rel ≠ []) :
    partialOf (root ++ rel) = root ++ partialOf rel := by
  rw [partialOf_eq (List.append_ne_nil_of_right_ne_nil root h), partialOf_eq h,
    List.dropLast_append_of_ne_nil h, List.getLast_append_of_ne_nil _ h, List.append_assoc]

theorem inside_partialOf_of_resolve {root file : List String} {key : String}
    (h : resolve root key = .ok file) :
    root <+: partialOf file ∧ root.length < (partialOf file).length := by
  obtain ⟨rel, rfl, hrel, -⟩ := resolve_eq_ok h
  rw [partialOf_append root hrel]
  refine inside_append root fun hnil => hrel ?_
  rw [← List.length_eq_zero_iff, ← length_partialOf hrel, hnil, List.length_nil]

theorem get_inside (root : List String) (key : String) :
    (get root key).run.Guarantees R (FsCall.Inside root) (fun _ => True) := by
  refine (get_calls root key).mono (fun c hc => ?_) (fun _ _ => trivial)
  obtain ⟨_, hfile, hc⟩ := hc
  rcases hc with rfl | rfl <;> exact FsCall.inside_of_paths_eq rfl (inside_of_resolve hfile)

theorem contains_inside (root : List String) (key : String) :
    (contains root key).run.Guarantees R (FsCall.Inside root) (fun _ => True) := by
  refine (contains_calls root key).mono (fun c hc => ?_) (fun _ _ => trivial)
  obtain ⟨_, hfile, rfl⟩ := hc
  exact FsCall.inside_of_paths_eq rfl (inside_of_resolve hfile)

theorem delete_inside (root : List String) (key : String) :
    (delete root key).run.Guarantees R (FsCall.Inside root) (fun _ => True) := by
  refine (delete_calls root key).mono (fun c hc => ?_) (fun _ _ => trivial)
  obtain ⟨_, hfile, hc⟩ := hc
  rcases hc with rfl | rfl | ⟨d, rfl, hd⟩
  · exact FsCall.inside_of_paths_eq rfl (inside_of_resolve hfile)
  · exact FsCall.inside_of_paths_eq rfl (inside_of_resolve hfile)
  · exact FsCall.inside_of_paths_eq rfl hd

theorem prefix_or_inside {root rel q : List String} (hq : q <+: root ++ rel) :
    q <+: root ∨ (root <+: q ∧ root.length < q.length) := by
  by_cases hlen : q.length ≤ root.length
  · exact .inl (List.prefix_of_prefix_length_le hq (List.prefix_append root rel) hlen)
  · exact .inr ⟨List.prefix_of_prefix_length_le (List.prefix_append root rel) hq (by omega),
      by omega⟩

theorem put_inside_or_above (root : List String) (key : String) (data : ByteArray) :
    (put root key data).run.Guarantees R
      (fun c : FsCall => FsCall.Inside root c ∨
        ∃ q, q <+: root ∧ (c = .mkdir q ∨ c = .status q))
      (fun _ => True) := by
  refine (put_calls root key data).mono (fun c hc => ?_) (fun _ _ => trivial)
  obtain ⟨file, hfile, hc⟩ := hc
  obtain ⟨rel, rfl, -, -⟩ := resolve_eq_ok hfile
  rcases hc with ⟨q, hq, hc⟩ | rfl | rfl
  · -- a directory on the way down: above the root, or inside it
    rcases prefix_or_inside hq with habove | hinside
    · exact .inr ⟨q, habove, hc⟩
    · rcases hc with rfl | rfl <;> exact .inl (FsCall.inside_of_paths_eq rfl hinside)
  · exact .inl (FsCall.inside_of_paths_eq rfl (inside_partialOf_of_resolve hfile))
  · refine .inl fun p hp => ?_
    simp only [FsCall.paths, List.mem_cons, List.not_mem_nil, or_false] at hp
    rcases hp with rfl | rfl
    · exact inside_partialOf_of_resolve hfile
    · exact inside_of_resolve hfile

theorem get_reads (root : List String) (key : String) :
    (get root key).run.Guarantees R FsCall.IsRead (fun _ => True) := by
  refine (get_calls root key).mono (fun c hc => ?_) (fun _ _ => trivial)
  obtain ⟨_, _, hc⟩ := hc
  rcases hc with rfl | rfl <;> trivial

/-- Under a root whose parent exists, the first call of writing a key is the making of the root
itself, a path that is not inside the root. -/
theorem put_makes_root :
    ¬ (put ["store"] "a" ByteArray.empty).run.Guarantees (fun _ _ => True)
      (FsCall.Inside ["store"]) (fun _ => True) := by
  have hseg : segments "a" = ["a"] := by decide
  have hend : "a".endsWith "/" = false := by
    rw [Bool.eq_false_iff, Ne, endsWith_slash_iff, hseg]
    simp
  have hres : resolve ["store"] "a" = .ok ["store", "a"] := by
    simp [resolve, hend, hseg]
  have hfirst : ∃ next, (put ["store"] "a" ByteArray.empty).run =
      Program.call (I := FileSystem) (FsCall.mkdir ["store"]) next := by
    unfold put
    rw [hres, run_liftExcept_bind]
    simp only [hend, Bool.false_eq_true, ↓reduceIte]
    unfold makeDirs
    rw [List.dropLast_cons_of_ne_nil (List.cons_ne_nil _ _), List.dropLast_singleton,
      Files.createDirAll, dif_neg (List.cons_ne_nil _ _), if_neg (by decide)]
    exact ⟨_, rfl⟩
  obtain ⟨next, hnext⟩ := hfirst
  intro h
  rw [hnext] at h
  have hroot := (h.call_inv ["store"] (List.mem_singleton_self _)).2
  exact absurd hroot (lt_irrefl _)

/-! ## Listing -/

theorem collect_reads (fuel : Nat) (dir : List String) (pre : String) :
    (collect fuel dir pre).run.Guarantees R FsCall.IsRead (fun _ => True) := by
  induction fuel generalizing dir pre with
  | zero => exact Guarantees.except_pure trivial
  | succ fuel ih =>
    unfold collect
    refine Guarantees.except_ask_bind trivial fun x _ => ?_
    split
    · split
      · exact Guarantees.except_pure trivial
      · exact backend_calls _ _
    · exact backend_calls _ _
    · refine Guarantees.except_seq (Guarantees.except_mapM fun entry _ => ?_)
        (fun _ => Guarantees.except_pure trivial) (fun _ => trivial)
      obtain ⟨name, kind⟩ := entry
      cases kind with
      | dir => exact ih _ _
      | file => exact Guarantees.except_pure trivial

theorem listAll_reads (root : List String) :
    (listAll root).run.Guarantees R FsCall.IsRead (fun _ => True) :=
  Guarantees.except_seq (collect_reads _ _ _) (fun _ => Guarantees.except_pure trivial)
    (fun _ => trivial)

theorem append_drop_of_isPrefixOf {pre k : String} (h : pre.isPrefixOf k = true) :
    pre ++ String.ofList (k.toList.drop pre.length) = k := by
  obtain ⟨t, ht⟩ := isPrefixOf_iff.mp h
  rw [← String.toList_inj, String.toList_append, String.toList_ofList, ← ht,
    ← String.length_toList, List.drop_left]

theorem listPrefix_extends (root : List String) (pre : String) :
    (serve root (.listPrefix pre)).run.Guarantees R FsCall.IsRead
      (fun r => ∀ keys : List String, r = .ok keys → ∀ k ∈ keys,
        pre ++ String.ofList (k.toList.drop pre.length) = k) :=
  Guarantees.except_bind (listAll_reads root)
    (fun _ _ => Guarantees.except_pure fun _ hkeys k hk => by
      cases hkeys
      exact append_drop_of_isPrefixOf (List.of_mem_filter hk))
    (fun _ _ h => by cases h)

end Directory

end Quorum
