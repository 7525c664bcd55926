import Quorum.Proofs.Reliable

/-!
# The versions of a queue stay gapless

Start from a reliable memory store with no object under a queue, and publish, sign and broadcast
in any order, on that queue or any other. The versions listed for the queue are then at every
point empty, a run `lo, …, hi`, or such a run together with version 0: their positive indices have
no gap (`Op.versions_gapless`).

Each operation keeps this. A first publish creates version 0, a queued one the version after the
highest, and a forced one writes version 0 anew; a signature adds a file to a version that already
has its payload; and a broadcast removes only the oldest version, the one its ordering check lets
through. A forced publish writes version 0 whatever the oldest pending version is, so after
versions 0 and 1 of three have been broadcast it reopens version 0 below version 2, and the
versions are no longer a run (`Op.versions_split_by_forced_publish`).
-/

namespace Quorum

/-- A set of indices whose positive members have no gap: every index between two members, the
lower one positive, is a member. Such a set is empty, a run `lo, …, hi`, or a run with 0 added. -/
def Gapless (S : UInt64 → Prop) : Prop :=
  ∀ i j m, S i → S j → 0 < i → i ≤ m → m ≤ j → S m

namespace Gapless

variable {S S' : UInt64 → Prop}

theorem congr (h : Gapless S) (hS : ∀ j, S' j ↔ S j) : Gapless S' := by
  intro i j m hi hj hpos him hmj
  exact (hS m).mpr (h i j m ((hS i).mp hi) ((hS j).mp hj) hpos him hmj)

theorem insert_zero (h : Gapless S) (hS : ∀ j, S' j ↔ S j ∨ j = 0) : Gapless S' := by
  intro i j m hi hj hpos him hmj
  have hi' : S i := ((hS i).mp hi).resolve_right fun h0 => by
    subst h0
    exact UInt64.lt_irrefl 0 hpos
  have hj' : S j := ((hS j).mp hj).resolve_right fun h0 => by
    subst h0
    exact absurd (UInt64.lt_of_lt_of_le hpos (UInt64.le_trans him hmj)) (UInt64.lt_irrefl 0)
  exact (hS m).mpr (.inl (h i j m hi' hj' hpos him hmj))

theorem insert_succ_max {hi top : UInt64} (h : Gapless S) (hS : ∀ j, S' j ↔ S j ∨ j = top)
    (hhi : S hi) (htop : top.toNat = hi.toNat + 1) (hlt : ∀ j, S j → j < top) : Gapless S' := by
  intro i j m hi' hj hpos him hmj
  rw [hS] at hi' hj ⊢
  rcases hi' with hi' | rfl
  · rcases hj with hj | rfl
    · exact .inl (h i j m hi' hj hpos him hmj)
    · -- an index up to the new top is the top or at most the old highest
      by_cases hm : m = i
      · exact hm ▸ .inl hi'
      by_cases hmt : m = j
      · exact .inr hmt
      have hle : m ≤ hi := by
        rw [UInt64.le_iff_toNat_le] at hmj ⊢
        have : m.toNat ≠ j.toNat := fun he => hmt (UInt64.toNat_inj.mp he)
        omega
      exact .inl (h i hi m hi' hhi hpos him hle)
  · -- the new top is above every member, so nothing lies between it and a member
    rcases hj with hj | rfl
    · exact absurd (UInt64.lt_of_le_of_lt (UInt64.le_trans him hmj) (hlt j hj)) (UInt64.lt_irrefl _)
    · exact .inr (UInt64.le_antisymm hmj him)

theorem erase_min {low : UInt64} (h : Gapless S) (hS : ∀ j, S' j ↔ S j ∧ j ≠ low)
    (hlow : ∀ j, S j → low ≤ j) : Gapless S' := by
  intro i j m hi hj hpos him hmj
  obtain ⟨hi, hil⟩ := (hS i).mp hi
  obtain ⟨hj, -⟩ := (hS j).mp hj
  refine (hS m).mpr ⟨h i j m hi hj hpos him hmj, fun hm => hil ?_⟩
  subst hm
  exact UInt64.le_antisymm him (hlow i hi)

end Gapless

namespace Blobs

variable {b : Blobs} {q : Queue}

theorem index_le_of_broadcastChecks {r : BroadcastRequest} {V : List UInt64}
    (h : b.broadcastChecks r = .ok ()) (hV : b.versions r.version.queue = .ok V) :
    ∀ j ∈ V, r.version.index ≤ j := by
  intro j hj
  obtain ⟨oldest, rest, rfl⟩ := List.exists_cons_of_ne_nil (List.ne_nil_of_mem hj)
  have hmin : (oldest :: rest).min? = some oldest := by
    rw [← head?_eq_min?_of_versions hV]
    rfl
  have hold : ¬ oldest < r.version.index := by
    intro hlt
    unfold broadcastChecks at h
    cases hn : r.node.all String.isEmpty <;> cases hk : r.multisigKey.isEmpty <;>
      simp [hn, hk, hV, hmin, hlt] at h
  have hle : oldest ≤ j := by
    rcases List.mem_cons.mp hj with rfl | hj
    · exact UInt64.le_refl _
    · exact UInt64.le_of_lt (List.rel_of_pairwise_cons (versions_ascending hV) hj)
  exact UInt64.le_trans (UInt64.not_lt.mp hold) hle

def Orderly (b : Blobs) (q : Queue) : Prop :=
  b.Tidy q ∧ Gapless (b.Holds q)

theorem orderly_of_under_eq_nil (h : b.under q.pre = []) : b.Orderly q := by
  refine ⟨tidy_of_under_eq_nil h, fun i _ _ hi => ?_⟩
  obtain ⟨a, ha⟩ := hi
  have hk : (q.version i).path a ∈ b.under q.pre :=
    mem_under.mpr ⟨mem_keys_iff_contains.mpr ha, Version.isPrefixOf_path_iff.mpr rfl⟩
  rw [h] at hk
  cases hk

theorem mem_versions_iff (h : b.Tidy q) {V : List UInt64} (hV : b.versions q = .ok V) (i : UInt64) :
    i ∈ V ↔ b.Holds q i := by
  obtain ⟨V', hV', hmem⟩ := versions_of_tidy h
  rw [hV] at hV'
  cases hV'
  exact hmem i

end Blobs

/-- A call of the coordinator that publishes, signs or broadcasts. -/
inductive Action where
  | publish (r : PublishRequest)
  | sign (r : SignRequest)
  | broadcast (r : BroadcastRequest)

namespace Action

variable {τ : Type} (ch : ChainAnswer τ) (s : Settings)

def step : Action → Scene (Lossy Unit) τ → Scene (Lossy Unit) τ
  | .publish r, w => (Op.exec (Lossy.answer Lossy.reliable) ch (Op.publish s r) w).2
  | .sign r, w => (Op.exec (Lossy.answer Lossy.reliable) ch (Op.sign r) w).2
  | .broadcast r, w => (Op.exec (Lossy.answer Lossy.reliable) ch (Op.broadcast s r) w).2

def run : List Action → Scene (Lossy Unit) τ → Scene (Lossy Unit) τ
  | [], w => w
  | a :: as, w => run as (step ch s a w)

end Action

namespace Blobs

variable {b : Blobs} {q : Queue}

theorem holds_publish {v : Version} {stale : List String} {payload m : ByteArray}
    (hstale : ∀ p ∈ stale, v.pre.isPrefixOf p) (i : UInt64) :
    (((stale.foldl erase b).put (v.path .unsigned) payload).put (v.path .signdata) m).Holds q i ↔
      b.Holds q i ∨ v = q.version i := by
  rw [holds_put, holds_put]
  constructor
  · rintro ((h | h) | h)
    · exact .inl h.of_foldl_erase
    · exact .inr h
    · exact .inr h
  · rintro (h | h)
    · by_cases hv : v = q.version i
      · exact .inr hv
      · exact .inl (.inl (h.foldl_erase_of_ne hstale (Ne.symm hv)))
    · exact .inr h

theorem Orderly.publish (h : b.Orderly q) {r : PublishRequest} {V : List UInt64} {v : Version}
    {stale : List String} {m : ByteArray} (hV : b.versions r.queue = .ok V)
    (hqueue : v.queue = r.queue) (hchoose : r.policy.Chooses V v.index)
    (hstale : ∀ p ∈ stale, v.pre.isPrefixOf p) :
    (((stale.foldl erase b).put (v.path .unsigned) r.payload).put (v.path .signdata) m).Orderly q := by
  obtain ⟨htidy, hgap⟩ := h
  refine ⟨((htidy.foldl_erase stale).put v Artifact.valid_unsigned _).put v
    Artifact.valid_signdata _, ?_⟩
  have hholds : ∀ j, (((stale.foldl erase b).put (v.path .unsigned) r.payload).put
      (v.path .signdata) m).Holds q j ↔ b.Holds q j ∨ v = q.version j :=
    holds_publish hstale
  by_cases hq : r.queue = q
  case neg =>
    refine hgap.congr fun j => (hholds j).trans (or_iff_left fun hv => hq ?_)
    rw [← hqueue, hv]
    rfl
  subst hq
  have hv : v = r.queue.version v.index := by
    obtain ⟨q', i⟩ := v
    simp only at hqueue
    rw [hqueue]
    rfl
  have hS : ∀ j, (((stale.foldl erase b).put (v.path .unsigned) r.payload).put (v.path .signdata)
      m).Holds r.queue j ↔ b.Holds r.queue j ∨ j = v.index := fun j => by
    rw [hholds j]
    refine or_congr_right ⟨fun he => ?_, fun he => by rw [hv, he]⟩
    rw [hv] at he
    exact (congrArg Version.index he).symm
  have hmem := mem_versions_iff htidy hV
  -- the policies: a first or forced publish writes version 0, a queued one the version after the
  -- highest
  cases hp : r.policy <;> rw [hp] at hchoose
  case refuse => exact hgap.insert_zero (hchoose.2 ▸ hS)
  case force => exact hgap.insert_zero (hchoose.2 ▸ hS)
  case additional =>
    obtain ⟨⟨hi, hhi, htop⟩, hlt⟩ := hchoose
    exact hgap.insert_succ_max hS ((hmem hi).mp hhi) htop fun j hj => hlt j ((hmem j).mpr hj)

theorem Orderly.sign (h : b.Orderly q) (v : Version) {a : Artifact} (ha : a.Valid)
    (hpayload : (b.get? (v.path .unsigned)).isSome) (d : ByteArray) :
    (b.put (v.path a) d).Orderly q := by
  obtain ⟨htidy, hgap⟩ := h
  refine ⟨htidy.put v ha d, hgap.congr fun j => (holds_put v a d j).trans ⟨?_, .inl⟩⟩
  rintro (hj | rfl)
  · exact hj
  · exact ⟨.unsigned, contains_eq_isSome ▸ hpayload⟩

theorem Orderly.broadcast (h : b.Orderly q) {r : BroadcastRequest} {files : List Artifact}
    (hchecks : b.broadcastChecks r = .ok ()) (hfiles : b.files r.version = .ok files) :
    ((files.map r.version.path).foldl erase b).Orderly q := by
  obtain ⟨htidy, hgap⟩ := h
  refine ⟨htidy.foldl_erase _, ?_⟩
  have hkeys : ∀ p ∈ files.map r.version.path, r.version.pre.isPrefixOf p := by
    intro p hp
    obtain ⟨a, -, rfl⟩ := List.mem_map.mp hp
    exact Version.isPrefixOf_path_self _ _
  have hS : ∀ j, ((files.map r.version.path).foldl erase b).Holds q j ↔
      b.Holds q j ∧ q.version j ≠ r.version := by
    intro j
    refine ⟨fun hj => ⟨hj.of_foldl_erase, fun he => ?_⟩, fun ⟨hj, hne⟩ =>
      hj.foldl_erase_of_ne hkeys hne⟩
    rw [← he] at hfiles hj
    exact not_holds_foldl_erase_files htidy hfiles hj
  by_cases hq : r.version.queue = q
  case neg =>
    refine hgap.congr fun j => (hS j).trans (and_iff_left fun he => hq ?_)
    rw [← he]
    rfl
  subst hq
  obtain ⟨V, hV, hmem⟩ := versions_of_tidy htidy
  have hlow := index_le_of_broadcastChecks hchecks hV
  have hS' : ∀ j, ((files.map r.version.path).foldl erase b).Holds r.version.queue j ↔
      b.Holds r.version.queue j ∧ j ≠ r.version.index := by
    refine fun j => (hS j).trans (and_congr_right fun _ => not_congr ⟨fun he => ?_, fun he => ?_⟩)
    · rw [← he]
      rfl
    · rw [he]
      rfl
  exact hgap.erase_min hS' fun j hj => hlow j ((hmem j).mpr hj)

end Blobs

namespace Action

variable {τ : Type} (ch : ChainAnswer τ) (s : Settings)

theorem orderly_step (q : Queue) (a : Action) (w : Scene (Lossy Unit) τ)
    (h : w.store.blobs.Orderly q) : (step ch s a w).store.blobs.Orderly q := by
  cases a with
  | publish r =>
    rcases Op.publish_effect ch s r w with hkeep | ⟨V, v, stale, m, hV, hqueue, hchoose, hstale, hw⟩
    · exact hkeep ▸ h
    · exact hw ▸ h.publish hV hqueue hchoose hstale
  | sign r =>
    rcases Op.sign_effect ch r w with hkeep | ⟨a, d, ha, hpayload, hw⟩
    · exact hkeep ▸ h
    · exact hw ▸ h.sign r.version (Artifact.valid_of_signature? ha) hpayload d
  | broadcast r =>
    rcases Op.broadcast_effect ch s r w with hkeep | ⟨files, hchecks, hfiles, hw⟩
    · exact hkeep ▸ h
    · exact hw ▸ h.broadcast hchecks hfiles

theorem orderly_run (q : Queue) (acts : List Action) (w : Scene (Lossy Unit) τ)
    (h : w.store.blobs.Orderly q) : (run ch s acts w).store.blobs.Orderly q := by
  induction acts generalizing w with
  | nil => exact h
  | cons a as ih => exact ih _ (orderly_step ch s q a w h)

end Action

namespace Op

variable {τ : Type}

/-- Starting with no object under a queue, publishing, signing and broadcasting on a reliable
memory store, on that queue or any other, leave the queue's versions listed without a fault, and
their positive indices with no gap: empty, a run `lo, …, hi`, or such a run with version 0. -/
theorem versions_gapless (ch : ChainAnswer τ) (s : Settings) (q : Queue) (acts : List Action)
    (w : Scene (Lossy Unit) τ) (hempty : w.store.blobs.under q.pre = []) :
    ∃ V, (Action.run ch s acts w).store.blobs.versions q = .ok V ∧ Gapless (· ∈ V) := by
  obtain ⟨htidy, hgap⟩ := Action.orderly_run ch s q acts w (Blobs.orderly_of_under_eq_nil hempty)
  obtain ⟨V, hV, hmem⟩ := Blobs.versions_of_tidy htidy
  exact ⟨V, hV, hgap.congr hmem⟩

end Op

namespace Sample

/-- A publish of `{}` to queue `c/k` with its account number and sequence given. -/
def pinned (policy : ConflictPolicy) (sequence : UInt64) : PublishRequest :=
  ⟨pendingQueue, "c-1", "\x7b\x7d".toUTF8, "cosmos1multi", some 5, some sequence, none, policy, ""⟩

/-- A broadcast of a version of `c/k` that needs no signature and always removes the version. -/
def broadcastAt (i : UInt64) : BroadcastRequest :=
  ⟨pendingQueue.version i, "val-multi", some "node", 0, .always⟩

/-- Three versions published, the first two broadcast, then a forced publish. -/
def forcedAfterBroadcasts : List Action :=
  [.publish (pinned .refuse 12), .publish (pinned .additional 13),
    .publish (pinned .additional 14), .broadcast (broadcastAt 0), .broadcast (broadcastAt 1),
    .publish (pinned .force 15)]

def emptyWorld : Scene (Lossy Unit) Unit := ⟨⟨(), Blobs.empty⟩, (), []⟩

end Sample

namespace Op

theorem versions_gapless_after_forced_publish :
    Sample.emptyWorld.store.blobs.under Sample.pendingQueue.pre = [] ∧
      ∃ V, (Action.run Sample.chain Sample.settings Sample.forcedAfterBroadcasts
        Sample.emptyWorld).store.blobs.versions Sample.pendingQueue = .ok V ∧ Gapless (· ∈ V) :=
  ⟨by decide +kernel, versions_gapless Sample.chain Sample.settings Sample.pendingQueue _ _
    (by decide +kernel)⟩

/-- After versions 0 and 1 of three have been broadcast, a forced publish writes version 0 again,
below version 2: the versions listed are 0 and 2, which are not a run. -/
theorem versions_split_by_forced_publish :
    ((Action.run Sample.chain Sample.settings Sample.forcedAfterBroadcasts
        Sample.emptyWorld).store.blobs.versions Sample.pendingQueue).toOption = some [0, 2] ∧
      ¬ ∃ lo hi : UInt64, ∀ i, i ∈ [(0 : UInt64), 2] ↔ lo ≤ i ∧ i ≤ hi := by
  refine ⟨by decide +kernel, ?_⟩
  rintro ⟨lo, hi, h⟩
  have h0 := (h 0).mp (by simp)
  have h2 := (h 2).mp (by simp)
  have h1 := (h 1).mpr ⟨UInt64.le_trans h0.1 (by decide), UInt64.le_trans (by decide) h2.2⟩
  revert h1
  decide

end Op

end Quorum
