import Quorum.Proofs.Transcript
import Quorum.Proofs.Lifecycle

/-!
# A broadcast among concurrent signers

Operations of several processes share one memory store with no lock: each call is one turn, and
the turns of different operations interleave in any order. A `Pool` holds a main operation, the
other operations, the world they share, and the trail of every answered request with the
operation that made it; a schedule says whose turn comes next (`Pool.run`). The main operation
follows its own part of the trail (`Pool.run_follows`), and on a memory store the trail replays
to the objects (`Pool.run_replays`).

A broadcast deletes only the keys it listed. When it reports its version removed, every object
left under the version, directory markers apart, was therefore put after the broadcast listed the
version (`Op.broadcast_leaves_only_puts_after_listing`); a signature written in that window
outlives the cleanup, and the version stays listed (`Op.late_signature_outlives_broadcast`).
-/

namespace Quorum

/-- Threads that share one world: a main thread, the other threads, the world, and the trail of
every request answered so far with the thread that made it, `none` for the main thread. -/
structure Pool (σ τ α β : Type) where
  main : Program Coordination α
  others : List (Program Coordination β)
  scene : Scene σ τ
  trail : List (Option Nat × Answered)

namespace Pool

variable {σ τ α β : Type} (st : StoreAnswer σ) (ch : ChainAnswer τ)

def start (main : Op α) (others : List (Op β)) (w : Scene σ τ) :
    Pool σ τ (Except Fault α) (Except Fault β) :=
  ⟨main.run, others.map (·.run), w, []⟩

def step (p : Pool σ τ α β) : Option Nat → Pool σ τ α β
  | none =>
    match p.main with
    | .call r next =>
      { p with main := next (Scene.answer st ch r p.scene).1
               scene := (Scene.answer st ch r p.scene).2
               trail := p.trail ++ [(none, ⟨r, (Scene.answer st ch r p.scene).1⟩)] }
    | _ => p
  | some i =>
    match p.others[i]? with
    | some (.call r next) =>
      { p with others := p.others.set i (next (Scene.answer st ch r p.scene).1)
               scene := (Scene.answer st ch r p.scene).2
               trail := p.trail ++ [(some i, ⟨r, (Scene.answer st ch r p.scene).1⟩)] }
    | _ => p

def run : List (Option Nat) → Pool σ τ α β → Pool σ τ α β
  | [], p => p
  | who :: rest, p => run rest (p.step st ch who)

def mainPart (g : List (Option Nat × Answered)) : List Answered :=
  g.filterMap fun e => if e.1 = none then some e.2 else none

theorem mainPart_append (g g' : List (Option Nat × Answered)) :
    mainPart (g ++ g') = mainPart g ++ mainPart g' :=
  List.filterMap_append

theorem step_cases (p : Pool σ τ α β) (who : Option Nat) :
    p.step st ch who = p ∨
      ∃ r, (p.step st ch who).scene = (Scene.answer st ch r p.scene).2 ∧
        (p.step st ch who).trail = p.trail ++ [(who, ⟨r, (Scene.answer st ch r p.scene).1⟩)] ∧
        (who = none → ∃ next, p.main = .call r next ∧
          (p.step st ch who).main = next (Scene.answer st ch r p.scene).1) ∧
        (who ≠ none → (p.step st ch who).main = p.main) := by
  cases who with
  | none =>
    cases hm : p.main with
    | call r next =>
      exact .inr ⟨r, by simp [step, hm], by simp [step, hm],
        fun _ => ⟨next, rfl, by simp [step, hm]⟩,
        fun h => absurd rfl h⟩
    | pure a => exact .inl (by simp [step, hm])
    | abort d => exact .inl (by simp [step, hm])
  | some i =>
    cases ho : p.others[i]? with
    | none => exact .inl (by simp [step, ho])
    | some q =>
      cases q with
      | call r next =>
        exact .inr ⟨r, by simp [step, ho], by simp [step, ho], fun h => absurd h (by simp),
          fun _ => by simp [step, ho]⟩
      | pure a => exact .inl (by simp [step, ho])
      | abort d => exact .inl (by simp [step, ho])

theorem step_follows (p : Pool σ τ α β) (who : Option Nat) :
    ∃ new, (p.step st ch who).trail = p.trail ++ new ∧
      Program.Follows p.main (mainPart new) (p.step st ch who).main := by
  rcases step_cases st ch p who with hstep | ⟨r, -, htrail, hmain, hother⟩
  · exact ⟨[], by rw [hstep, List.append_nil], by rw [hstep]; exact .nil _⟩
  refine ⟨_, htrail, ?_⟩
  cases who with
  | none =>
    obtain ⟨next, hm, hnext⟩ := hmain rfl
    rw [hm, hnext]
    exact .call _ (.nil _)
  | some i =>
    rw [hother (by simp)]
    exact .nil _

theorem run_follows (who : List (Option Nat)) (p : Pool σ τ α β) :
    ∃ new, (p.run st ch who).trail = p.trail ++ new ∧
      Program.Follows p.main (mainPart new) (p.run st ch who).main := by
  induction who generalizing p with
  | nil => exact ⟨[], by simp [run], .nil _⟩
  | cons w ws ih =>
    obtain ⟨new1, htrail1, hf1⟩ := step_follows st ch p w
    obtain ⟨new2, htrail2, hf2⟩ := ih (p.step st ch w)
    refine ⟨new1 ++ new2, ?_, ?_⟩
    · simp only [run, htrail2, htrail1, List.append_assoc]
    · rw [mainPart_append]
      exact hf1.append hf2

theorem mem_mainPart {g : List (Option Nat × Answered)} {e : Answered} (h : e ∈ mainPart g) :
    (none, e) ∈ g := by
  obtain ⟨x, hx, hxe⟩ := List.mem_filterMap.mp h
  rcases x with ⟨_ | i, e'⟩
  · simp only [if_true, Option.some.injEq] at hxe
    rwa [← hxe]
  · simp at hxe

theorem mainPart_eq_append_cons {g : List (Option Nat × Answered)} {t1 t2 : List Answered}
    {e : Answered} (h : mainPart g = t1 ++ e :: t2) :
    ∃ g1 g2, g = g1 ++ (none, e) :: g2 ∧ mainPart g2 = t2 := by
  induction g generalizing t1 with
  | nil => simp [mainPart] at h
  | cons x g ih =>
    rcases x with ⟨_ | i, e'⟩
    · cases t1 with
      | nil =>
        simp only [mainPart, List.filterMap_cons, if_true, List.nil_append, List.cons.injEq] at h
        obtain ⟨rfl, h⟩ := h
        exact ⟨[], g, rfl, h⟩
      | cons y t1 =>
        simp only [mainPart, List.filterMap_cons, if_true, List.cons_append, List.cons.injEq] at h
        obtain ⟨g1, g2, rfl, h2⟩ := ih h.2
        exact ⟨(none, e') :: g1, g2, rfl, h2⟩
    · have h' : mainPart g = t1 ++ e :: t2 := by simpa [mainPart] using h
      obtain ⟨g1, g2, rfl, h2⟩ := ih h'
      exact ⟨(some i, e') :: g1, g2, rfl, h2⟩

end Pool

namespace Answered

def apply (e : Answered) (b : Blobs) : Blobs :=
  match e.1 with
  | .store c => (Blobs.answer c b).2
  | .chain _ => b

/-- The objects of a memory store after the requests of a trail, in order. -/
def replay (b : Blobs) (l : List Answered) : Blobs :=
  l.foldl (fun b e => e.apply b) b

/-- The reply of a request is the one a memory store with the objects `b` gives. -/
def TrueTo (e : Answered) (b : Blobs) : Prop :=
  match e with
  | ⟨.store c, x⟩ => x = (Blobs.answer c b).1
  | ⟨.chain _, _⟩ => True

/-- Each store request of a trail got the reply that a memory store gives after the requests
before it. -/
def Faithful : Blobs → List Answered → Prop
  | _, [] => True
  | b, e :: rest => e.TrueTo b ∧ Faithful (e.apply b) rest

@[simp] theorem replay_nil (b : Blobs) : replay b [] = b := rfl

@[simp] theorem replay_append (b : Blobs) (l l' : List Answered) :
    replay b (l ++ l') = replay (replay b l) l' :=
  List.foldl_append

@[simp] theorem replay_cons (b : Blobs) (e : Answered) (l : List Answered) :
    replay b (e :: l) = replay (e.apply b) l := rfl

theorem faithful_append {b : Blobs} {l l' : List Answered} :
    Faithful b (l ++ l') ↔ Faithful b l ∧ Faithful (replay b l) l' := by
  induction l generalizing b with
  | nil => simp [Faithful]
  | cons e l ih => simp [Faithful, ih, and_assoc]

theorem Faithful.trueTo_at {b : Blobs} {l l' : List Answered} {e : Answered}
    (h : Faithful b (l ++ e :: l')) : e.TrueTo (replay b l) :=
  (faithful_append.mp h).2.1

theorem contains_apply {e : Answered} {b : Blobs} {k : String} (h : (e.apply b).contains k = true) :
    (∃ d, e.1 = .store (.put k d)) ∨ (b.contains k = true ∧ e.1 ≠ .store (.delete k)) := by
  rcases e with ⟨(c | c), x⟩
  · cases c with
    | put k' d =>
      by_cases hk : k' = k
      · exact .inl ⟨d, by rw [hk]⟩
      · refine .inr ⟨?_, by simp⟩
        simpa [apply, Blobs.answer, Blobs.contains_put, hk] using h
    | delete k' =>
      by_cases hk : k' = k
      · subst hk
        simp [apply, Blobs.answer, Blobs.contains_erase] at h
      · refine .inr ⟨?_, by simpa using hk⟩
        simpa [apply, Blobs.answer, Blobs.contains_erase, hk] using h
    | get p | listAll | listPrefix p | contains p => exact .inr ⟨h, by simp⟩
  · exact .inr ⟨h, by simp⟩

theorem contains_replay {b : Blobs} {l : List Answered} {k : String}
    (h : (replay b l).contains k = true) :
    (∃ e ∈ l, ∃ d, e.1 = .store (.put k d)) ∨
      (b.contains k = true ∧ ∀ e ∈ l, e.1 ≠ .store (.delete k)) := by
  induction l generalizing b with
  | nil => exact .inr ⟨h, fun e he => absurd he List.not_mem_nil⟩
  | cons e l ih =>
    rcases ih h with ⟨e', he', d, hput⟩ | ⟨hc, hdel⟩
    · exact .inl ⟨e', List.mem_cons_of_mem e he', d, hput⟩
    rcases contains_apply hc with ⟨d, hput⟩ | ⟨hc', hne⟩
    · exact .inl ⟨e, List.mem_cons_self, d, hput⟩
    · refine .inr ⟨hc', fun e' he' => ?_⟩
      rcases List.mem_cons.mp he' with rfl | he'
      · exact hne
      · exact hdel e' he'

end Answered

namespace Pool

variable {τ α β : Type} (ch : ChainAnswer τ)

theorem answer_trueTo (r : Request) (w : Scene Blobs τ) :
    Answered.TrueTo ⟨r, (Scene.answer Blobs.answer ch r w).1⟩ w.store := by
  cases r <;> trivial

theorem answer_store (r : Request) (w : Scene Blobs τ) :
    (Scene.answer Blobs.answer ch r w).2.store =
      Answered.apply ⟨r, (Scene.answer Blobs.answer ch r w).1⟩ w.store := by
  cases r <;> rfl

theorem run_replays (who : List (Option Nat)) (p : Pool Blobs τ α β) :
    ∃ new, (p.run Blobs.answer ch who).trail = p.trail ++ new ∧
      Answered.Faithful p.scene.store (new.map Prod.snd) ∧
      (p.run Blobs.answer ch who).scene.store = Answered.replay p.scene.store (new.map Prod.snd) := by
  induction who generalizing p with
  | nil => exact ⟨[], by simp [run], trivial, rfl⟩
  | cons w ws ih =>
    rw [run]
    obtain ⟨new, htrail, hfaithful, hstore⟩ := ih (p.step Blobs.answer ch w)
    rcases step_cases Blobs.answer ch p w with hstep | ⟨r, hscene, htrail1, -, -⟩
    · rw [hstep] at htrail hfaithful hstore ⊢
      exact ⟨new, htrail, hfaithful, hstore⟩
    · -- the turn answered one request, on the objects as they were
      refine ⟨(w, ⟨r, (Scene.answer Blobs.answer ch r p.scene).1⟩) :: new, ?_, ?_, ?_⟩
      · simp [htrail, htrail1]
      · rw [hscene, answer_store] at hfaithful
        exact ⟨answer_trueTo ch r p.scene, hfaithful⟩
      · rw [hstore, hscene, answer_store]
        rfl

end Pool

theorem toList_of_stripPrefix? {s pre rest : String} (h : stripPrefix? s pre = some rest) :
    s.toList = pre.toList ++ rest.toList := by
  unfold stripPrefix? at h
  by_cases hpre : pre.toList.isPrefixOf s.toList
  · simp only [hpre, if_true, Option.some.injEq] at h
    obtain ⟨t, ht⟩ := List.isPrefixOf_iff_prefix.mp hpre
    subst h
    rw [← ht, String.toList_ofList, ← String.length_toList, List.drop_left]
  · simp [hpre] at h

theorem Queue.isPrefixOf_of_versionOf {q : Queue} {k : String} {i : UInt64}
    (h : q.versionOf k = .ok (some i)) :
    (q.version i).pre.isPrefixOf k = true ∧ endsInSlash k = false := by
  have hplace : q.placement k = .ok (.version i) := by
    unfold Queue.versionOf at h
    cases hp : q.placement k with
    | error e => simp [hp] at h
    | ok pl => cases pl <;> simp_all
  unfold Queue.placement at hplace
  cases hs : stripPrefix? k q.pre with
  | none => simp [hs] at hplace
  | some rest =>
    simp only [hs] at hplace
    have hk := toList_of_stripPrefix? hs
    by_cases hm : (rest.isEmpty || endsInSlash rest) = true
    · simp [hm] at hplace
    simp only [hm] at hplace
    obtain ⟨-, hslash⟩ : rest.isEmpty = false ∧ endsInSlash rest = false := by simpa using hm
    cases hsplit : rest.toList.splitOn '/' with
    | nil => simp [hsplit] at hplace
    | cons seg segs =>
      cases segs with
      | nil => simp [hsplit] at hplace
      | cons seg' segs =>
        simp only [hsplit, Bool.false_eq_true, if_false] at hplace
        have hseg : (indexText i).toList = seg := by
          cases hp : parseIndex k (String.ofList seg) with
          | error e => simp [hp, Except.map] at hplace
          | ok j =>
            simp only [hp, Except.map, Except.ok.injEq, Placement.version.injEq] at hplace
            rw [← hplace, indexText_of_parseIndex hp, String.toList_ofList]
        have hrest : rest.toList = seg ++ '/' :: ['/'].intercalate (seg' :: segs) := by
          have h : ['/'].intercalate (rest.toList.splitOn '/') = rest.toList :=
            List.intercalate_splitOn '/'
          rw [hsplit] at h
          rw [← h, List.intercalate_cons_cons]
          simp
        constructor
        · rw [isPrefixOf_iff, toList_pre_eq_queue, hk, hrest]
          exact ⟨['/'].intercalate (seg' :: segs), by simp [Queue.version, hseg]⟩
        · have hne : rest.toList ≠ [] := by simp [hrest]
          unfold endsInSlash at hslash ⊢
          rw [hk, List.getLast?_append_of_ne_nil _ hne]
          exact hslash

namespace Op

variable {τ β : Type}

/-- A broadcast run side by side with any other operations on one memory store, at the
granularity of single calls and in any order, that reports its version removed: its trail holds
the broadcast's one listing of the version, and every object left under the version, directory
markers apart, was put after that listing. So when nothing is put under the version after the
listing, listing the versions of the queue no longer finds it. -/
theorem broadcast_leaves_only_puts_after_listing (ch : ChainAnswer τ) (s : Settings)
    (r : BroadcastRequest) (others : List (Op β)) (schedule : List (Option Nat))
    (w : Scene Blobs τ) {b : Broadcasted}
    (hdone : (Pool.run Blobs.answer ch schedule (Pool.start (broadcast s r) others w)).main =
      .pure (.ok b))
    (hb : b.removed = true) :
    let final := Pool.run Blobs.answer ch schedule (Pool.start (broadcast s r) others w)
    ∃ (g1 : List (Option Nat × Answered)) (L : List String) (g2 : List (Option Nat × Answered)),
      final.trail = g1 ++ (none, ⟨.store (.listPrefix r.version.pre), .ok L⟩) :: g2 ∧
      (∀ k ∈ final.scene.store.under r.version.pre, endsInSlash k = false →
        ∃ e ∈ g2, ∃ d, e.2.1 = .store (.put k d)) ∧
      ((∀ e ∈ g2, ∀ k d, e.2.1 = .store (.put k d) → r.version.pre.isPrefixOf k = false) →
        ∀ V, final.scene.store.versions r.version.queue = .ok V → r.version.index ∉ V) := by
  intro final
  obtain ⟨new, htrail, hfollows⟩ :=
    Pool.run_follows Blobs.answer ch schedule (Pool.start (broadcast s r) others w)
  obtain ⟨new', htrail', hfaithful, hstore⟩ :=
    Pool.run_replays ch schedule (Pool.start (broadcast s r) others w)
  obtain rfl : new' = new := List.append_cancel_left (htrail'.symm.trans htrail)
  rw [hdone] at hfollows
  -- the broadcast's own transcript: it listed the version once, then deleted the listed keys
  obtain ⟨t1, L, t2, hsplit, hdel⟩ := Ran.broadcast_deletes_listed hfollows hb
  obtain ⟨g1, g2, rfl, hg2⟩ := Pool.mainPart_eq_append_cons hsplit
  have hlisted : L = (Answered.replay w.store (g1.map Prod.snd)).under r.version.pre := by
    have h := @Answered.Faithful.trueTo_at _ _ (g2.map Prod.snd) _
      (by simpa using hfaithful)
    simp only [Answered.TrueTo, Blobs.answer] at h
    rw [← Blobs.keysFrom_eq_under]
    exact Except.ok.inj h
  have hfinal : final.scene.store =
      Answered.replay (Answered.replay w.store (g1.map Prod.snd)) (g2.map Prod.snd) := by
    rw [hstore, List.map_append, List.map_cons, Answered.replay_append, Answered.replay_cons]
    rfl
  have hlate : ∀ k ∈ final.scene.store.under r.version.pre, endsInSlash k = false →
      ∃ e ∈ g2, ∃ d, e.2.1 = .store (.put k d) := by
    intro k hk hslash
    obtain ⟨hkeys, hpre⟩ := Blobs.mem_under.mp hk
    rw [hfinal] at hkeys
    rcases Answered.contains_replay (Blobs.mem_keys_iff_contains.mp hkeys) with
      ⟨e, he, d, hput⟩ | ⟨hc, hnodel⟩
    · obtain ⟨x, hx, rfl⟩ := List.mem_map.mp he
      exact ⟨x, hx, d, hput⟩
    · -- an object there at the listing was deleted after it
      have hkL : k ∈ L :=
        hlisted ▸ Blobs.mem_under.mpr ⟨Blobs.mem_keys_iff_contains.mpr hc, hpre⟩
      obtain ⟨e, he, hek⟩ := hdel k hkL hslash
      rw [← hg2] at he
      exact absurd hek (hnodel e (List.mem_map.mpr ⟨_, Pool.mem_mainPart he, rfl⟩))
  refine ⟨g1, L, g2, htrail.trans (List.nil_append _), hlate, fun hnoput V hV hmem => ?_⟩
  -- a listed version holds a key under its prefix that is no marker, which only a late put made
  obtain ⟨-, hV⟩ := collect_eq_ok r.version.queue.versionOf _ hV List.Pairwise.nil
  obtain ⟨k, hk, hki⟩ := ((hV r.version.index).mp hmem).resolve_left List.not_mem_nil
  obtain ⟨hpre, hslash⟩ := Queue.isPrefixOf_of_versionOf hki
  have hpre' : r.version.pre.isPrefixOf k = true := hpre
  obtain ⟨e, he, d, hput⟩ :=
    hlate k (Blobs.mem_under.mpr ⟨(Blobs.mem_under.mp hk).1, hpre'⟩) hslash
  rw [hnoput e he k d hput] at hpre'
  cases hpre'

end Op

/-- Whether a broadcast thread has ended with a report that its version was removed. -/
def endedRemoved : Program Coordination (Except Fault Broadcasted) → Bool
  | .pure (.ok b) => b.removed
  | _ => false

theorem eq_pure_of_endedRemoved {p : Program Coordination (Except Fault Broadcasted)}
    (h : endedRemoved p = true) : ∃ b, p = .pure (.ok b) ∧ b.removed = true := by
  rcases p with (_ | b) | _ | _ <;> simp_all [endedRemoved]

def Program.ended {I : Interface} {α : Type} : Program I α → Bool
  | .pure _ => true
  | _ => false

namespace Sample

/-- Version 0 of `c/k` with its payload, its metadata and Alice's signature. -/
def raceStore : Blobs :=
  ((Blobs.empty.put (version.path .unsigned) "\x7b\x7d".toUTF8).put (version.path .signdata)
    "\x7b\"account\":5,\"sequence\":12,\"chain-id\":\"c-1\"\x7d".toUTF8).put
    (version.path (.signature "alice")) "sa".toUTF8

def raceWorld : Scene Blobs Unit := ⟨raceStore, (), []⟩

/-- A broadcast of the version that needs one signature and always removes the version. -/
def raceBroadcast : BroadcastRequest := ⟨version, "val-multi", some "node", 1, .always⟩

/-- Bob reads the version, the broadcast runs to its end, then Bob signs and writes. -/
def race : List (Option Nat) := [some 0, some 0] ++ List.replicate 13 none ++ [some 0, some 0]

end Sample

namespace Op

/-- Bob reads version 0 of `c/k`, a broadcast that needs one signature runs to its end, and Bob
signs: the only object left under the version is Bob's signature, written after the broadcast's
listing. -/
theorem bob_signature_put_after_listing :
    ∃ b : Broadcasted,
      (Pool.run Blobs.answer Sample.chain Sample.race (Pool.start (broadcast Sample.settings
        Sample.raceBroadcast) [sign (Sample.signingAs "bob")] Sample.raceWorld)).main =
        .pure (.ok b) ∧ b.removed = true ∧
      ∃ (g1 : List (Option Nat × Answered)) (L : List String) (g2 : List (Option Nat × Answered)),
        (Pool.run Blobs.answer Sample.chain Sample.race (Pool.start (broadcast Sample.settings
          Sample.raceBroadcast) [sign (Sample.signingAs "bob")] Sample.raceWorld)).trail =
          g1 ++ (none, ⟨.store (.listPrefix Sample.version.pre), .ok L⟩) :: g2 ∧
        ∀ k ∈ (Pool.run Blobs.answer Sample.chain Sample.race (Pool.start (broadcast
          Sample.settings Sample.raceBroadcast) [sign (Sample.signingAs "bob")]
          Sample.raceWorld)).scene.store.under Sample.version.pre,
          endsInSlash k = false → ∃ e ∈ g2, ∃ d, e.2.1 = .store (.put k d) := by
  obtain ⟨b, hdone, hb⟩ := @eq_pure_of_endedRemoved ((Pool.run Blobs.answer Sample.chain
    Sample.race (Pool.start (broadcast Sample.settings Sample.raceBroadcast)
    [sign (Sample.signingAs "bob")] Sample.raceWorld)).main) (by decide +kernel)
  obtain ⟨g1, L, g2, htrail, hlate, -⟩ := broadcast_leaves_only_puts_after_listing Sample.chain
    Sample.settings Sample.raceBroadcast [sign (Sample.signingAs "bob")] Sample.race
    Sample.raceWorld hdone hb
  exact ⟨b, hdone, hb, g1, L, g2, htrail, hlate⟩

/-- The broadcast reports version 0 removed and Bob's signing ends too, yet Bob's signature is left
under the version and listing the queue still finds version 0. -/
theorem late_signature_outlives_broadcast :
    let final := Pool.run Blobs.answer Sample.chain Sample.race
      (Pool.start (broadcast Sample.settings Sample.raceBroadcast) [sign (Sample.signingAs "bob")]
        Sample.raceWorld)
    endedRemoved final.main = true ∧ final.others.map Program.ended = [true] ∧
      final.scene.store.under Sample.version.pre = [Sample.version.path (.signature "bob")] ∧
      (final.scene.store.versions Sample.version.queue).toOption = some [0] := by
  decide +kernel

end Op

end Quorum
