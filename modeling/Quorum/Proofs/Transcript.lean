import Quorum.Proofs.Inspect

/-!
# What an operation asks and is told

A program makes its requests one at a time. Its transcript is the list of those requests with
the replies it got, in order; given the replies of a transcript, a program becomes what is left of
it (`Program.Follows`). An operation that ends with a value `a` after the transcript `t` is
`Op.Ran x t a`.

Nothing here fixes who answers. The replies may come from a store that other processes change
between two requests of the same operation, so what is proved of a transcript holds however the
requests of others are interleaved with it. The lemmas take a run that ends with a value apart
along the binds of the operation, one inversion lemma per call; from them, a broadcast that
reports its version removed listed the version once and later deleted each listed key that is
not a directory marker (`Op.Ran.broadcast_deletes_listed`).
-/

namespace Quorum

namespace Program

variable {I : Interface} {α β : Type}

/-- `p`, given in turn the replies of `t` to the requests it makes, becomes `q`. -/
inductive Follows : Program I α → List ((r : I.Request) × I.Reply r) → Program I α → Prop
  | nil (p : Program I α) : Follows p [] p
  | call {r : I.Request} {next : I.Reply r → Program I α} (x : I.Reply r)
      {t : List ((r : I.Request) × I.Reply r)} {q : Program I α} :
      Follows (next x) t q → Follows (.call r next) (⟨r, x⟩ :: t) q

namespace Follows

theorem append {p q q' : Program I α} {t t'} (h : Follows p t q) (h' : Follows q t' q') :
    Follows p (t ++ t') q' := by
  induction h with
  | nil => exact h'
  | call x _ ih => exact .call x (ih h')

theorem pure_inv {a : α} {t q} (h : Follows (.pure a : Program I α) t q) : t = [] ∧ q = .pure a := by
  cases h
  exact ⟨rfl, rfl⟩

theorem call_inv_pure {r : I.Request} {next : I.Reply r → Program I α} {t} {a : α}
    (h : Follows (.call r next) t (.pure a)) :
    ∃ x t', t = ⟨r, x⟩ :: t' ∧ Follows (next x) t' (.pure a) := by
  cases h with
  | call x h => exact ⟨x, _, rfl, h⟩

theorem bind_inv_pure {p : Program I α} {f : α → Program I β} {t} {b : β}
    (h : Follows (p.bind f) t (.pure b)) :
    ∃ t1 t2 a, t = t1 ++ t2 ∧ Follows p t1 (.pure a) ∧ Follows (f a) t2 (.pure b) := by
  induction p generalizing t with
  | pure a => exact ⟨[], t, a, rfl, .nil _, h⟩
  | call r next ih =>
    obtain ⟨x, t', rfl, h'⟩ := call_inv_pure h
    obtain ⟨t1, t2, a, rfl, h1, h2⟩ := ih x h'
    exact ⟨⟨r, x⟩ :: t1, t2, a, rfl, .call x h1, h2⟩
  | abort d => cases h

end Follows

end Program

namespace Op

/-- Given in turn the replies of `t`, the operation `x` ends with the value `a`. -/
def Ran {α : Type} (x : Op α) (t : List Answered) (a : α) : Prop :=
  Program.Follows x.run t (.pure (.ok a))

variable {α β : Type}

theorem Ran.bind_inv {x : Op α} {f : α → Op β} {t : List Answered} {b : β}
    (h : Ran (x >>= f) t b) :
    ∃ t1 t2 a, t = t1 ++ t2 ∧ Ran x t1 a ∧ Ran (f a) t2 b := by
  obtain ⟨t1, t2, ea, rfl, h1, h2⟩ := @Program.Follows.bind_inv_pure _ _ _ x.run _ _ _ h
  cases ea with
  | error e =>
    obtain ⟨-, h⟩ := h2.pure_inv
    cases h
  | ok a => exact ⟨t1, t2, a, rfl, h1, h2⟩

theorem Ran.pure_inv {a b : α} {t : List Answered} (h : Ran (pure a : Op α) t b) :
    t = [] ∧ b = a := by
  obtain ⟨ht, hq⟩ := Program.Follows.pure_inv h
  cases hq
  exact ⟨ht, rfl⟩

theorem Ran.of_pure_bind {a : α} {f : α → Op β} {t : List Answered} {b : β}
    (h : Ran (pure a >>= f) t b) : Ran (f a) t b := h

theorem Ran.not_throw_bind {e : Fault} {f : α → Op β} {t : List Answered} {b : β} :
    ¬ Ran (throw e >>= f) t b := by
  intro h
  obtain ⟨-, hq⟩ := Program.Follows.pure_inv h
  cases hq

theorem Ran.store_inv {c : StoreCall} {t : List Answered} {a : c.Reply} (h : Ran (store c) t a) :
    t = [⟨.store c, .ok a⟩] := by
  obtain ⟨x, t', rfl, h'⟩ := Program.Follows.call_inv_pure h
  obtain ⟨rfl, hq⟩ := Program.Follows.pure_inv h'
  cases x <;> cases hq
  rfl

theorem run_foldlM_silent {γ : Type} (body : γ → String → Op γ)
    (step : γ → String → Except Fault γ) (h : ∀ acc k, (body acc k).run = .pure (step acc k))
    (keys : List String) (acc : γ) :
    (keys.foldlM body acc).run = .pure (keys.foldlM step acc) := by
  induction keys generalizing acc with
  | nil => rfl
  | cons k ks ih =>
    rw [List.foldlM_cons, List.foldlM_cons]
    show Program.bind (body acc k).run _ = _
    rw [h]
    cases hs : step acc k with
    | error e => rfl
    | ok a => exact ih a

theorem Ran.listFiles_inv {v : Version} {t : List Answered} {files : List Artifact}
    (h : Ran (listFiles v) t files) :
    ∃ L : List String, t = [⟨.store (.listPrefix v.pre), .ok L⟩] ∧
      L.foldlM (collectStep Artifact.compare v.artifactOf) [] = .ok files := by
  unfold listFiles at h
  obtain ⟨t1, t2, L, rfl, h1, h2⟩ := h.bind_inv
  unfold Ran at h2
  rw [run_foldlM_silent _ (collectStep Artifact.compare v.artifactOf) ?silent L []] at h2
  · obtain ⟨rfl, hq⟩ := Program.Follows.pure_inv h2
    exact ⟨L, by rw [h1.store_inv]; rfl, (Program.pure.inj hq).symm⟩
  · intro acc k
    unfold collectStep Version.artifactOf
    cases v.fileOf k with
    | error e => rfl
    | ok a => cases a <;> rfl

theorem Ran.prepareBroadcast_inv {r : BroadcastRequest} {t : List Answered} {p : Prepared}
    (h : Ran (prepareBroadcast r) t p) :
    ∃ (t1 : List Answered) (L : List String) (t2 : List Answered),
      t = t1 ++ ⟨.store (.listPrefix r.version.pre), .ok L⟩ :: t2 ∧
      L.foldlM (collectStep Artifact.compare r.version.artifactOf) [] = .ok p.files := by
  unfold prepareBroadcast at h
  dsimp only at h
  rcases hn : Option.filter (fun x => !x.isEmpty) r.node with _ | node <;> simp only [hn] at h
  · exact (Ran.not_throw_bind h).elim
  replace h := h.of_pure_bind
  by_cases hk : r.multisigKey.isEmpty = true <;> simp only [hk, if_true] at h
  · exact (Ran.not_throw_bind h).elim
  obtain ⟨tv, tr, V, rfl, -, hr⟩ := h.bind_inv
  rcases hhead : V.head? with _ | pending <;> simp only [hhead] at hr
  rotate_left
  by_cases hold : pending < r.version.index <;> simp only [hold, if_true, if_false] at hr
  · exact (Ran.not_throw_bind hr).elim
  -- with or without a listed version, the files are listed next and kept to the end
  all_goals
    obtain ⟨tl, tf, files, rfl, hfiles, hf⟩ := hr.bind_inv
    obtain ⟨L, rfl, hL⟩ := hfiles.listFiles_inv
    refine ⟨tv, L, tf, by simp, ?_⟩
    rw [hL]
    by_cases hs : (signerNames files).length < r.threshold <;> simp only [hs, if_true, if_false] at hf
    · exact (Ran.not_throw_bind hf).elim
    obtain ⟨-, t1, _, -, -, h1⟩ := hf.bind_inv
    obtain ⟨-, t2, _, -, -, h2⟩ := h1.bind_inv
    obtain ⟨-, t3, _, -, -, h3⟩ := h2.bind_inv
    obtain ⟨-, t4, _, -, -, h4⟩ := h3.bind_inv
    obtain ⟨-, rfl⟩ := h4.pure_inv
    rfl

theorem Ran.chain_inv {c : ChainCall} {t : List Answered} {a : c.Reply} (h : Ran (chain c) t a) :
    t = [⟨.chain c, .ok a⟩] := by
  obtain ⟨x, t', rfl, h'⟩ := Program.Follows.call_inv_pure h
  obtain ⟨rfl, hq⟩ := Program.Follows.pure_inv h'
  cases hq
  rfl

theorem Ran.lift_inv {x : Program Coordination α} {t : List Answered} {a : α}
    (h : Ran (ExceptT.lift x) t a) : Program.Follows x t (.pure a) := by
  obtain ⟨t1, t2, a', rfl, h1, h2⟩ := @Program.Follows.bind_inv_pure _ _ _ x _ _ _ h
  obtain ⟨rfl, hq⟩ := Program.Follows.pure_inv h2
  cases hq
  simpa using h1

theorem deletes_of_removeEach {s : Settings} {removed paths : List String} {t : List Answered}
    (h : Program.Follows (removeEach s removed paths) t (.pure none)) :
    ∀ k ∈ paths, ∃ e ∈ t, e.1 = .store (.delete k) := by
  induction paths generalizing removed t with
  | nil => exact fun k hk => absurd hk List.not_mem_nil
  | cons p ps ih =>
    rw [removeEach] at h
    obtain ⟨t1, t2, o, rfl, h1, h2⟩ := Program.Follows.bind_inv_pure h
    cases o with
    | error f =>
      obtain ⟨-, hq⟩ := Program.Follows.pure_inv h2
      cases hq
    | ok u =>
      change Program.Follows (@Program.call Coordination _ (.store (.delete p)) _) t1 _ at h1
      obtain ⟨x, t', rfl, -⟩ := Program.Follows.call_inv_pure h1
      intro k hk
      rcases List.mem_cons.mp hk with rfl | hk
      · exact ⟨_, List.mem_append_left _ List.mem_cons_self, rfl⟩
      · obtain ⟨e, he, hek⟩ := ih h2 k hk
        exact ⟨e, List.mem_append_right _ he, hek⟩

theorem Ran.lift_removeEach_deletes {s : Settings} {paths : List String}
    {f : Option Stopped → Op β} {t : List Answered} {b : β}
    (hf : ∀ st t' b', ¬ Ran (f (some st)) t' b')
    (h : Ran (ExceptT.lift (removeEach s [] paths) >>= f) t b) :
    ∀ k ∈ paths, ∃ e ∈ t, e.1 = .store (.delete k) := by
  obtain ⟨t1, t2, o, rfl, h1, h2⟩ := h.bind_inv
  cases o with
  | some st => exact (hf st t2 b h2).elim
  | none =>
    intro k hk
    obtain ⟨e, he, hek⟩ := deletes_of_removeEach h1.lift_inv k hk
    exact ⟨e, List.mem_append_left _ he, hek⟩

theorem Ran.settle_deletes {s : Settings} {r : BroadcastRequest} {files : List Artifact}
    {result : Outcome} {t : List Answered} {b : Broadcasted} (h : Ran (settle s r files result) t b)
    (hb : b.removed = true) :
    ∀ k ∈ files.map r.version.path, ∃ e ∈ t, e.1 = .store (.delete k) := by
  unfold settle at h
  dsimp only at h
  cases hc : r.cleanup <;> simp only [hc] at h
  case always =>
    simp only [if_true] at h
    exact Ran.lift_removeEach_deletes (fun _ _ _ => Ran.not_throw_bind) h
  case onSuccess =>
    by_cases hrem : result.isSuccess = true <;> simp only [hrem, if_true] at h
    · exact Ran.lift_removeEach_deletes (fun _ _ _ => Ran.not_throw_bind) h
    · -- a failed transaction kept for a retry is reported as kept
      obtain ⟨-, rfl⟩ := h.pure_inv
      cases hb

theorem Ran.submitPrepared_inv {s : Settings} {r : BroadcastRequest} {p : Prepared}
    {t : List Answered} {b : Broadcasted} (h : Ran (submitPrepared s r p) t b) :
    ∃ t1 t2 result, t = t1 ++ t2 ∧ Ran (settle s r p.files result) t2 b := by
  unfold submitPrepared at h
  obtain ⟨ta, t', _, rfl, -, h'⟩ := h.bind_inv
  obtain ⟨ts, tr, result, rfl, -, hr⟩ := h'.bind_inv
  exact ⟨ta ++ ts, tr, result, (List.append_assoc _ _ _).symm, hr⟩

theorem Ran.broadcast_deletes_listed {s : Settings} {r : BroadcastRequest} {t : List Answered}
    {b : Broadcasted} (h : Ran (broadcast s r) t b) (hb : b.removed = true) :
    ∃ (t1 : List Answered) (L : List String) (t2 : List Answered),
      t = t1 ++ ⟨.store (.listPrefix r.version.pre), .ok L⟩ :: t2 ∧
      ∀ k ∈ L, endsInSlash k = false → ∃ e ∈ t2, e.1 = .store (.delete k) := by
  unfold broadcast at h
  obtain ⟨tp, ts, p, rfl, hp, hs⟩ := h.bind_inv
  obtain ⟨t1, L, t2, rfl, hL⟩ := hp.prepareBroadcast_inv
  obtain ⟨ta, tset, result, rfl, hset⟩ := hs.submitPrepared_inv
  refine ⟨t1, L, t2 ++ (ta ++ tset), by simp, fun k hk hslash => ?_⟩
  -- a listed key that is not a marker reads as a file of the version, which the cleanup removes
  obtain ⟨o, ho⟩ := collect_ok_of_mem _ hL hk
  have hfile : r.version.fileOf k = .ok o := by
    unfold Version.artifactOf at ho
    split at ho <;> simp_all
  cases o with
  | none => simp [Version.endsInSlash_of_fileOf hfile] at hslash
  | some a =>
    have ha : a ∈ p.files :=
      ((collect_eq_ok _ _ hL List.Pairwise.nil).2 a).mpr (.inr ⟨k, hk, ho⟩)
    obtain ⟨e, he, hek⟩ := hset.settle_deletes hb k
      (Version.path_of_fileOf hfile ▸ List.mem_map_of_mem ha)
    exact ⟨e, List.mem_append_right _ (List.mem_append_right _ he), hek⟩

end Op
end Quorum
