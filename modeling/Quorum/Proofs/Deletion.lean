import Quorum.Proofs.Replay
import Quorum.Proofs.Reachable

/-!
# Deleting a version

A deletion lists the files of a version and removes their paths in listing order, one at a time,
each removal a delete followed by checks until the object is gone. On a memory store whose
removals may fail or be lost, a deletion whose listing fails changes nothing; one that lists no
file reports that there is nothing to delete and sends no removal; any other removes a first part
of the listed paths and nothing else, sends exactly the requests of those removals and of the one
that stopped it, and reports the paths removed, or the failure of its first removal as it is, or a
partial cleanup of the version (`Op.delete_removes_listed_files`).
-/

namespace Quorum

namespace Op

variable {ρ τ : Type} (fate : StoreCall → ρ → Fate × ρ) (ch : ChainAnswer τ)

theorem exec_removeAll_log (s : Settings) (pre : String) (paths : List String)
    (w : Scene (Lossy ρ) τ) (hpresent : ∀ p ∈ paths, w.store.blobs.contains p)
    (hnodup : paths.Nodup) :
    ∃ w' done rest, done ++ rest = paths ∧ w'.store.blobs = done.foldl Blobs.erase w.store.blobs ∧
      w'.chain = w.chain ∧
      ((exec (Lossy.answer fate) ch (removeAll s pre paths) w = (.ok (.ok ()), w') ∧ rest = [] ∧
          w'.log = w.log ++ done.flatMap confirmedRemoval) ∨
        ∃ p cause failed, rest.head? = some p ∧
          exec (Lossy.answer fate) ch (removeAll s pre paths) w =
            (.ok (.error (if done = [] then cause else .partialCleanup pre done rest cause)), w') ∧
          w'.log = w.log ++ done.flatMap confirmedRemoval ++ failed ∧
          RemovalFailed s.deleteTimeout p cause failed) := by
  obtain ⟨w', done, rest, hsplit, hblobs, hchain, hout⟩ :=
    run_removeEach_log fate ch s [] paths w hpresent hnodup
  have hexec : exec (Lossy.answer fate) ch (removeAll s pre paths) w =
      Program.run (Scene.answer (Lossy.answer fate) ch) ((removeEach s [] paths).bind _) w := rfl
  rw [Program.run_bind (Scene.answer (Lossy.answer fate) ch) (removeEach s [] paths)] at hexec
  refine ⟨w', done, rest, hsplit, hblobs, hchain, ?_⟩
  rcases hout with ⟨hrun, hrest, hlog⟩ | ⟨p, cause, failed, hhead, hrun, hlog, hfailed⟩
  · rw [hrun] at hexec
    exact .inl ⟨hexec, hrest, hlog⟩
  · rw [hrun] at hexec
    refine .inr ⟨p, cause, failed, hhead, hexec.trans ?_, hlog, hfailed⟩
    simp [Program.run]

/-- Deleting a version on a memory store, whatever becomes of its removals. A listing that fails
changes nothing and is the answer. Otherwise let `P` be the paths of the listed files, in listing
order; each lies under the version's prefix. When `P` is empty the deletion reports that there is
nothing to delete and sends nothing after the listing. Otherwise it removes the paths of `P` one
at a time, each confirmed gone before the next: the store loses a first part `done` of `P` and
nothing else, and the deletion reports `P` when all are gone; when the removal of the next path
fails, the log ends with that removal's requests, and the answer is its failure as it is when
nothing was removed, and a partial cleanup of the version's prefix with what was removed and what
remains otherwise. -/
theorem delete_removes_listed_files (s : Settings) (v : Version) (w : Scene (Lossy ρ) τ) :
    let listing : Answered := ⟨.store (.listPrefix v.pre), .ok (w.store.blobs.under v.pre)⟩
    let run := exec (Lossy.answer fate) ch (delete s v) w
    (∀ e, (exec (Lossy.answer fate) ch (listFiles v) w).1 = .ok (.error e) →
      run = (.ok (.error e), { w with log := w.log ++ [listing] })) ∧
    ∀ files, (exec (Lossy.answer fate) ch (listFiles v) w).1 = .ok (.ok files) →
      (∀ p ∈ files.map v.path, v.pre.isPrefixOf p) ∧
      if files.map v.path = [] then
        run = (.ok (.ok .nothing), { w with log := w.log ++ [listing] })
      else
        ∃ done rest, done ++ rest = files.map v.path ∧
          (∀ k, run.2.store.blobs.get? k = if k ∈ done then none else w.store.blobs.get? k) ∧
          run.2.chain = w.chain ∧
          ((rest = [] ∧ run.1 = .ok (.ok (.removed (files.map v.path))) ∧
              run.2.log = w.log ++ listing :: done.flatMap confirmedRemoval) ∨
            ∃ p cause failed, rest.head? = some p ∧ RemovalFailed s.deleteTimeout p cause failed ∧
              run.2.log = w.log ++ listing :: (done.flatMap confirmedRemoval ++ failed) ∧
              run.1 = .ok (.error (if done = [] then cause
                else .partialCleanup v.pre done rest cause))) := by
  intro listing run
  simp only [exec_listFiles, Except.ok.injEq]
  refine ⟨fun e he => ?_, fun files hfiles => ⟨fun p hp => ?_, ?_⟩⟩
  · -- the listing fails, and the deletion with it
    unfold run delete
    rw [exec_bind_error _ _ ((exec_listFiles fate ch v w).trans (by rw [he]))]
  · obtain ⟨a, -, rfl⟩ := List.mem_map.mp hp
    exact Version.isPrefixOf_path_self v a
  have hlist := (exec_listFiles fate ch v w).trans (by rw [hfiles])
  unfold run delete
  rw [exec_bind_ok _ _ hlist]
  cases files with
  | nil => rfl
  | cons a rest =>
    -- the listed paths are distinct stored objects, removed one after another
    obtain ⟨hnodup, hpresent⟩ := Blobs.paths_of_files hfiles
    obtain ⟨w', done, rest', hsplit, hblobs, hchain, hout⟩ :=
      exec_removeAll_log fate ch s v.pre (v.path a :: rest.map v.path)
        { w with log := w.log ++ [listing] } hpresent hnodup
    simp only [List.map_cons, reduceCtorEq, if_false, List.isEmpty_cons, Bool.false_eq_true]
    have hframe (k : String) :
        w'.store.blobs.get? k = if k ∈ done then none else w.store.blobs.get? k := by
      rw [hblobs, Blobs.get?_foldl_erase_ite]
    rcases hout with ⟨hrun, hrest, hlog⟩ | ⟨p, cause, failed, hhead, hrun, hlog, hfailed⟩
    · rw [exec_bind_ok _ _ hrun]
      exact ⟨done, rest', hsplit, hframe, hchain, .inl ⟨hrest, rfl, by simp [hlog]⟩⟩
    · rw [exec_bind_error _ _ hrun]
      exact ⟨done, rest', hsplit, hframe, hchain,
        .inr ⟨p, cause, failed, hhead, hfailed, by simp [hlog], rfl⟩⟩

end Op

end Quorum
