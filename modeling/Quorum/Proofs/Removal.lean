import Quorum.Proofs.Scene

/-!
# Removing objects from a store that may lose removals

A removal is a delete followed by a wait for the object to disappear. In a memory store whose
environment may fail a delete or lose it, reads always see the objects as they are, so the wait
sees the delete's effect at its first check: the object is gone, or every check still finds it
and the wait times out.

A run of removals over distinct objects that are all present therefore removes a first part of
them and keeps the rest; when it stops, the last request it made is the delete or the check of
the first object kept, and the cause it reports is that request's failure (`Op.run_removeEach`).
Its log holds, object by object, the delete and the check that confirmed each removal, and then the
requests of the removal that stopped it (`Op.run_removeEach_log`).
-/

namespace Quorum

namespace Blobs

theorem ext {a b : Blobs} (h : ∀ k, a.get? k = b.get? k) : a = b := by
  cases a
  cases b
  exact congrArg Blobs.mk (Std.ExtTreeMap.ext_getElem? h)

theorem get?_erase {b : Blobs} {k k' : String} :
    (b.erase k).get? k' = if k = k' then none else b.get? k' := by
  simp [get?, erase, Std.ExtTreeMap.getElem?_erase]

theorem contains_eq_isSome {b : Blobs} {k : String} : b.contains k = (b.get? k).isSome :=
  Std.ExtTreeMap.contains_eq_isSome_getElem?

theorem contains_erase {b : Blobs} {k k' : String} :
    (b.erase k).contains k' = (k != k' && b.contains k') := by
  simp only [contains_eq_isSome, get?_erase]
  split <;> simp_all

theorem erase_of_not_contains {b : Blobs} {k : String} (h : b.contains k = false) :
    b.erase k = b := by
  have hk : b.get? k = none := by simpa [contains_eq_isSome] using h
  refine ext fun k' => ?_
  rw [get?_erase]
  split
  · subst k'
    exact hk.symm
  · rfl

theorem contains_foldl_erase {b : Blobs} {ks : List String} {k : String} (hk : k ∉ ks) :
    (ks.foldl erase b).contains k = b.contains k := by
  induction ks generalizing b with
  | nil => rfl
  | cons k' ks ih =>
    rw [List.foldl_cons, ih (List.not_mem_of_not_mem_cons hk), contains_erase]
    have : k' ≠ k := fun h => hk (h ▸ List.mem_cons_self)
    simp [this]

theorem contains_foldl_erase_eq_false {b : Blobs} {ks : List String} {k : String}
    (h : k ∈ ks ∨ b.contains k = false) : (ks.foldl erase b).contains k = false := by
  induction ks generalizing b with
  | nil => simpa using h
  | cons k' ks ih =>
    rw [List.foldl_cons]
    by_cases hk : k' = k
    · exact ih (.inr (by simp [contains_erase, hk]))
    · refine ih ?_
      rcases h with h | h
      · exact .inl ((List.mem_cons.mp h).resolve_left (Ne.symm hk))
      · exact .inr (by simp [contains_erase, h])

end Blobs

/-- Whether a request is one a removal makes: a delete or a check for an object. -/
def Request.isRemoval : Request → Bool
  | .store (.delete _) | .store (.contains _) => true
  | _ => false

theorem Request.isChain_of_isRemoval {r : Request} (h : r.isRemoval) : r.isChain = false := by
  rcases r with (_ | _ | _ | _ | _ | _) | _ <;> simp_all [Request.isRemoval, Request.isChain]

theorem Request.isPut_of_isRemoval {r : Request} (h : r.isRemoval) : r.isPut = false := by
  rcases r with (_ | _ | _ | _ | _ | _) | _ <;> simp_all [Request.isRemoval, Request.isPut]

/-- The removal of `p` is what stopped a run whose log is `log`: the last request is the delete of
`p`, which failed with the error that became `cause`, or a check that still found `p`, and `cause`
is the timeout of the wait. -/
def FailedRemoval (timeout : Duration) (p : String) (cause : Fault) (log : List Answered) : Prop :=
  (∃ e, log.getLast? = some ⟨.store (.delete p), .error e⟩ ∧ cause = e.toFault) ∨
    (log.getLast? = some ⟨.store (.contains p), .ok true⟩ ∧
      cause = (StoreError.timeout p timeout).toFault)

/-- The requests of a removal of `p` that the store confirmed: the delete, then a check that finds
the object gone. -/
def confirmedRemoval (p : String) : List Answered :=
  [⟨.store (.delete p), .ok ()⟩, ⟨.store (.contains p), .ok false⟩]

/-- The requests of a removal of `p` that stopped with `cause`: a delete that the store refused, or
a delete that it accepted followed by checks that kept finding the object until the wait of
`timeout` gave up. -/
def RemovalFailed (timeout : Duration) (p : String) (cause : Fault) (requests : List Answered) :
    Prop :=
  (∃ e, requests = [⟨.store (.delete p), .error e⟩] ∧ cause = e.toFault) ∨
    ∃ n, requests = ⟨.store (.delete p), .ok ()⟩ ::
        List.replicate (n + 1) ⟨.store (.contains p), .ok true⟩ ∧
      cause = (StoreError.timeout p timeout).toFault

theorem isRemoval_of_mem_confirmedRemoval {p : String} {e : Answered}
    (h : e ∈ confirmedRemoval p) : e.1.isRemoval := by
  simp only [confirmedRemoval, List.mem_cons, List.not_mem_nil, or_false] at h
  rcases h with rfl | rfl <;> rfl

namespace RemovalFailed

variable {timeout : Duration} {p : String} {cause : Fault} {requests : List Answered}

theorem isRemoval (h : RemovalFailed timeout p cause requests) : ∀ e ∈ requests, e.1.isRemoval := by
  rcases h with ⟨_, rfl, -⟩ | ⟨n, rfl, -⟩ <;> intro e he
  · rw [List.mem_singleton.mp he]
    rfl
  · rcases List.mem_cons.mp he with rfl | he
    · rfl
    · rw [(List.mem_replicate.mp he).2]
      rfl

theorem failedRemoval (h : RemovalFailed timeout p cause requests) (log : List Answered) :
    FailedRemoval timeout p cause (log ++ requests) := by
  rcases h with ⟨e, rfl, rfl⟩ | ⟨n, rfl, rfl⟩
  · exact .inl ⟨e, by simp, rfl⟩
  · refine .inr ⟨?_, rfl⟩
    simp [List.getLast?_cons, List.getLast?_replicate]

end RemovalFailed

namespace Op

variable {ρ τ α : Type} (fate : StoreCall → ρ → Fate × ρ) (ch : ChainAnswer τ)

theorem run_contains_bind (p : String) (f : Except StoreError Bool → Program Coordination α)
    (w : Scene (Lossy ρ) τ) :
    Program.run (Scene.answer (Lossy.answer fate) ch) (contains p >>= f) w =
      Program.run (Scene.answer (Lossy.answer fate) ch) (f (.ok (w.store.blobs.contains p)))
        { w with log := w.log ++ [⟨.store (.contains p), .ok (w.store.blobs.contains p)⟩] } :=
  rfl

theorem run_waitWith (p : String) (timeout : Duration) (n : Nat) (w : Scene (Lossy ρ) τ) :
    Program.run (Scene.answer (Lossy.answer fate) ch) (waitWith contains p timeout (n + 1)) w =
      if w.store.blobs.contains p then
        (.ok (.error (.timeout p timeout)),
          { w with log := w.log ++ List.replicate (n + 1) ⟨.store (.contains p), .ok true⟩ })
      else (.ok (.ok ()), { w with log := w.log ++ [⟨.store (.contains p), .ok false⟩] }) := by
  induction n generalizing w with
  | zero =>
    rw [waitWith, run_contains_bind]
    cases w.store.blobs.contains p <;> rfl
  | succ n ih =>
    rw [waitWith, run_contains_bind]
    cases h : w.store.blobs.contains p
    · rfl
    · refine (ih _).trans ?_
      simp only [h, if_true, List.append_assoc, List.singleton_append, List.replicate_succ]

theorem exec_delete_bind_ok {σ : Type} {st : StoreAnswer σ} {p : String} {k : Op α}
    {w : Scene σ τ} (h : (st (.delete p) w.store).1 = .ok ()) :
    exec st ch (do store (.delete p); k) w =
      exec st ch k { w with store := (st (.delete p) w.store).2,
                                 log := w.log ++ [⟨.store (.delete p), .ok ()⟩] } :=
  exec_store_bind_ok st ch h

theorem exec_delete_bind_error {σ : Type} {st : StoreAnswer σ} {p : String} {k : Op α}
    {w : Scene σ τ} {e : StoreError} (h : (st (.delete p) w.store).1 = .error e) :
    exec st ch (do store (.delete p); k) w =
      (.ok (.error e.toFault), { w with store := (st (.delete p) w.store).2,
                                        log := w.log ++ [⟨.store (.delete p), .error e⟩] }) :=
  exec_store_bind_error st ch h

theorem checksWithin_eq_succ (timeout interval : Duration) :
    ∃ n, checksWithin timeout interval = n + 1 := by
  unfold checksWithin
  split <;> exact ⟨_, rfl⟩

theorem exec_waitUntilAbsent (p : String) (timeout interval : Duration) (w : Scene (Lossy ρ) τ) :
    ∃ n, exec (Lossy.answer fate) ch (waitUntilAbsent p timeout interval) w =
      if w.store.blobs.contains p then
        (.ok (.error (StoreError.timeout p timeout).toFault),
          { w with log := w.log ++ List.replicate (n + 1) ⟨.store (.contains p), .ok true⟩ })
      else (.ok (.ok ()), { w with log := w.log ++ [⟨.store (.contains p), .ok false⟩] }) := by
  obtain ⟨n, hn⟩ := checksWithin_eq_succ timeout interval
  refine ⟨n, (Program.run_bind _ _ _ w).trans ?_⟩
  rw [Quorum.waitUntilAbsent, hn, run_waitWith]
  cases w.store.blobs.contains p <;> rfl

theorem exec_waitUntilAbsent_of_absent (p : String) (timeout interval : Duration)
    {w : Scene (Lossy ρ) τ} (h : w.store.blobs.contains p = false) :
    exec (Lossy.answer fate) ch (waitUntilAbsent p timeout interval) w =
      (.ok (.ok ()), { w with log := w.log ++ [⟨.store (.contains p), .ok false⟩] }) := by
  obtain ⟨n, hn⟩ := exec_waitUntilAbsent fate ch p timeout interval w
  rw [hn, h]
  rfl

theorem exec_waitUntilAbsent_of_present (p : String) (timeout interval : Duration)
    {w : Scene (Lossy ρ) τ} (h : w.store.blobs.contains p = true) :
    ∃ n, exec (Lossy.answer fate) ch (waitUntilAbsent p timeout interval) w =
      (.ok (.error (StoreError.timeout p timeout).toFault),
        { w with log := w.log ++ List.replicate (n + 1) ⟨.store (.contains p), .ok true⟩ }) := by
  obtain ⟨n, hn⟩ := exec_waitUntilAbsent fate ch p timeout interval w
  rw [h] at hn
  exact ⟨n, hn⟩

theorem exec_removeOne_log (s : Settings) (p : String) (w : Scene (Lossy ρ) τ)
    (hp : w.store.blobs.contains p) :
    ∃ w', w'.chain = w.chain ∧
      ((exec (Lossy.answer fate) ch (removeOne s p) w = (.ok (.ok ()), w') ∧
          w'.store.blobs = w.store.blobs.erase p ∧ w'.log = w.log ++ confirmedRemoval p) ∨
        ∃ cause failed, exec (Lossy.answer fate) ch (removeOne s p) w = (.ok (.error cause), w') ∧
          w'.store.blobs = w.store.blobs ∧ w'.log = w.log ++ failed ∧
          RemovalFailed s.deleteTimeout p cause failed) := by
  unfold removeOne
  rcases hf : fate (.delete p) w.store.env with ⟨_ | e | _, env⟩
  · -- the delete takes effect, and the first check finds the object gone
    have hd : Lossy.answer fate (.delete p) w.store = (.ok (), ⟨env, w.store.blobs.erase p⟩) := by
      simp only [Lossy.answer, hf]
    rw [exec_delete_bind_ok ch (congrArg Prod.fst hd),
      exec_waitUntilAbsent_of_absent fate ch p _ _ (by simp [hd, Blobs.contains_erase])]
    refine ⟨_, ?_, .inl ⟨rfl, by simp [hd], by simp [confirmedRemoval]⟩⟩
    rfl
  · -- the delete fails and the object stays
    have hd : Lossy.answer fate (.delete p) w.store = (.error e, { w.store with env }) := by
      simp only [Lossy.answer, hf]
    rw [exec_delete_bind_error ch (congrArg Prod.fst hd)]
    refine ⟨_, ?_, .inr ⟨_, _, rfl, by simp [hd], rfl, .inl ⟨e, rfl, rfl⟩⟩⟩
    rfl
  · -- the delete is lost, and every check still finds the object
    have hd : Lossy.answer fate (.delete p) w.store = (.ok (), { w.store with env }) := by
      simp only [Lossy.answer, hf]
    rw [exec_delete_bind_ok ch (congrArg Prod.fst hd)]
    obtain ⟨n, hwait⟩ := exec_waitUntilAbsent_of_present fate ch p s.deleteTimeout s.pollInterval
      (w := { w with store := (Lossy.answer fate (.delete p) w.store).2,
                     log := w.log ++ [⟨.store (.delete p), .ok ()⟩] }) (by simp [hd, hp])
    rw [hwait]
    refine ⟨_, ?_, .inr ⟨_, _, rfl, by simp [hd], by simp, .inr ⟨n, rfl, rfl⟩⟩⟩
    rfl

theorem exec_removeOne (s : Settings) (p : String) (w : Scene (Lossy ρ) τ)
    (hp : w.store.blobs.contains p) :
    ∃ w', (exec (Lossy.answer fate) ch (removeOne s p) w = (.ok (.ok ()), w') ∧
          w'.store.blobs = w.store.blobs.erase p ∨
        ∃ cause, exec (Lossy.answer fate) ch (removeOne s p) w = (.ok (.error cause), w') ∧
          w'.store.blobs = w.store.blobs ∧ FailedRemoval s.deleteTimeout p cause w'.log) ∧
      w'.chain = w.chain ∧ ∃ new, w'.log = w.log ++ new ∧ ∀ e ∈ new, e.1.isRemoval := by
  obtain ⟨w', hchain, hout⟩ := exec_removeOne_log fate ch s p w hp
  rcases hout with ⟨hrun, hblobs, hlog⟩ | ⟨cause, failed, hrun, hblobs, hlog, hfailed⟩
  · exact ⟨w', .inl ⟨hrun, hblobs⟩, hchain, _, hlog,
      fun e he => isRemoval_of_mem_confirmedRemoval he⟩
  · exact ⟨w', .inr ⟨cause, hrun, hblobs, hlog ▸ hfailed.failedRemoval w.log⟩, hchain, _, hlog,
      hfailed.isRemoval⟩

theorem run_removeEach_cons (s : Settings) (removed : List String) (p : String)
    (ps : List String) (w : Scene (Lossy ρ) τ) :
    Program.run (Scene.answer (Lossy.answer fate) ch) (removeEach s removed (p :: ps)) w =
      match exec (Lossy.answer fate) ch (removeOne s p) w with
      | (.ok (.ok ()), w') =>
        Program.run (Scene.answer (Lossy.answer fate) ch) (removeEach s (removed ++ [p]) ps) w'
      | (.ok (.error f), w') => (.ok (some ⟨removed, p :: ps, f⟩), w')
      | (.error d, w') => (.error d, w') := by
  rw [removeEach]
  refine (Program.run_bind (Scene.answer (Lossy.answer fate) ch) (removeOne s p).run _ w).trans ?_
  generalize hr : exec (Lossy.answer fate) ch (removeOne s p) w = r
  unfold exec at hr
  rw [hr]
  rcases r with ⟨_ | _ | _, _⟩ <;> rfl

theorem run_removeEach_log (s : Settings) (removed paths : List String) (w : Scene (Lossy ρ) τ)
    (hpresent : ∀ p ∈ paths, w.store.blobs.contains p) (hnodup : paths.Nodup) :
    ∃ w' done rest, done ++ rest = paths ∧ w'.store.blobs = done.foldl Blobs.erase w.store.blobs ∧
      w'.chain = w.chain ∧
      ((Program.run (Scene.answer (Lossy.answer fate) ch) (removeEach s removed paths) w =
          (.ok none, w') ∧ rest = [] ∧ w'.log = w.log ++ done.flatMap confirmedRemoval) ∨
        ∃ p cause failed, rest.head? = some p ∧
          Program.run (Scene.answer (Lossy.answer fate) ch) (removeEach s removed paths) w =
            (.ok (some ⟨removed ++ done, rest, cause⟩), w') ∧
          w'.log = w.log ++ done.flatMap confirmedRemoval ++ failed ∧
          RemovalFailed s.deleteTimeout p cause failed) := by
  induction paths generalizing removed w with
  | nil => exact ⟨w, [], [], rfl, rfl, rfl, .inl ⟨rfl, rfl, by simp⟩⟩
  | cons p ps ih =>
    obtain ⟨hp, hps⟩ := List.nodup_cons.mp hnodup
    obtain ⟨w1, hchain1, hone⟩ := exec_removeOne_log fate ch s p w (hpresent p List.mem_cons_self)
    rw [run_removeEach_cons]
    rcases hone with ⟨hrun, hblobs, hlog⟩ | ⟨cause, failed, hrun, hblobs, hlog, hfailed⟩
    · -- the first object is gone; the others are still present
      have hrest : ∀ q ∈ ps, w1.store.blobs.contains q := fun q hq => by
        have hpq : p ≠ q := fun h => hp (h ▸ hq)
        simp [hblobs, Blobs.contains_erase, hpq, hpresent q (List.mem_cons_of_mem p hq)]
      obtain ⟨w', done, rest, hsplit, hblobs', hchain', hout⟩ := ih (removed ++ [p]) w1 hrest hps
      refine ⟨w', p :: done, rest, by simp [hsplit], by simp [hblobs', hblobs],
        hchain'.trans hchain1, ?_⟩
      rw [hrun]
      rcases hout with ⟨hrun', rfl, hlog'⟩ | ⟨q, cause, failed, hhead, hrun', hlog', hfailed⟩
      · exact .inl ⟨hrun', rfl, by simp [hlog', hlog]⟩
      · exact .inr ⟨q, cause, failed, hhead, by simpa using hrun', by simp [hlog', hlog], hfailed⟩
    · -- the first removal stops the run
      refine ⟨w1, [], p :: ps, rfl, hblobs, hchain1, .inr ⟨p, cause, failed, rfl, ?_, by simpa, hfailed⟩⟩
      rw [hrun]
      simp

theorem run_removeEach (s : Settings) (removed paths : List String) (w : Scene (Lossy ρ) τ)
    (hpresent : ∀ p ∈ paths, w.store.blobs.contains p) (hnodup : paths.Nodup) :
    ∃ w' done rest, done ++ rest = paths ∧ w'.store.blobs = done.foldl Blobs.erase w.store.blobs ∧
      (Program.run (Scene.answer (Lossy.answer fate) ch) (removeEach s removed paths) w =
          (.ok none, w') ∧ rest = [] ∨
        ∃ p cause, rest.head? = some p ∧
          Program.run (Scene.answer (Lossy.answer fate) ch) (removeEach s removed paths) w =
            (.ok (some ⟨removed ++ done, rest, cause⟩), w') ∧
          FailedRemoval s.deleteTimeout p cause w'.log) ∧
      w'.chain = w.chain ∧ ∃ new, w'.log = w.log ++ new ∧ ∀ e ∈ new, e.1.isRemoval := by
  obtain ⟨w', done, rest, hsplit, hblobs, hchain, hout⟩ :=
    run_removeEach_log fate ch s removed paths w hpresent hnodup
  have hconfirmed : ∀ e ∈ done.flatMap confirmedRemoval, e.1.isRemoval := fun e he => by
    obtain ⟨p, -, hp⟩ := List.mem_flatMap.mp he
    exact isRemoval_of_mem_confirmedRemoval hp
  rcases hout with ⟨hrun, hrest, hlog⟩ | ⟨p, cause, failed, hhead, hrun, hlog, hfailed⟩
  · exact ⟨w', done, rest, hsplit, hblobs, .inl ⟨hrun, hrest⟩, hchain, _, hlog, hconfirmed⟩
  · refine ⟨w', done, rest, hsplit, hblobs, .inr ⟨p, cause, hhead, hrun, ?_⟩, hchain, _,
      by rw [hlog, List.append_assoc], fun e he => ?_⟩
    · rw [hlog]
      exact hfailed.failedRemoval _
    · rcases List.mem_append.mp he with he | he
      · exact hconfirmed e he
      · exact hfailed.isRemoval e he

end Op

end Quorum
