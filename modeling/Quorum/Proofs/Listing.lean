import Quorum.Proofs.Scene
import Mathlib.Data.String.Basic

/-!
# Listings of a memory store

A memory store lists the keys under a prefix by reading its ascending keys from the prefix on and
stopping at the first key that does not start with it. The keys that start with a prefix form an
interval of the lexicographic order, so this reads exactly the keys of the store that start with
the prefix (`Blobs.keysFrom_eq_under`): the answer a store without a listing of its own gives by
filtering its whole listing (`Blobs.answer_listPrefix_eq_filteredListing`).

The coordinator reads the versions of a queue and the files of a version from such listings: it
classifies each key, fails on the first key that does not fit, and collects what the others give
in an ascending list without repetitions (`collect_eq_ok`, `collect_eq_error`).
-/

namespace Quorum

section Except

variable {ε α β : Type}

@[simp] theorem Except.ok_bind (a : α) (f : α → Except ε β) : (Except.ok a >>= f) = f a := rfl

@[simp] theorem Except.error_bind (e : ε) (f : α → Except ε β) :
    (Except.error e >>= f) = Except.error e := rfl

@[simp] theorem Except.throw_eq (e : ε) : (throw e : Except ε α) = Except.error e := rfl

@[simp] theorem Except.map_ok (f : α → β) (a : α) : (f <$> (Except.ok a : Except ε α)) = .ok (f a) :=
  rfl

end Except

section Prefix

theorem prefix_of_lt_of_not_lt {p a b : List Char} (hb : p <+: b) (hab : a < b) (hpa : ¬ a < p) :
    p <+: a := by
  induction p generalizing a b with
  | nil => exact List.nil_prefix
  | cons x p ih =>
    obtain ⟨y, b', rfl⟩ : ∃ y b', b = y :: b' := by
      cases b with
      | nil => exact absurd hb (by simp)
      | cons y b' => exact ⟨y, b', rfl⟩
    obtain ⟨rfl, hp⟩ := List.cons_prefix_cons.mp hb
    cases a with
    | nil => exact absurd (List.Lex.nil) hpa
    | cons z a' =>
      rw [List.cons_lt_cons_iff] at hab hpa
      rcases hab with hzx | ⟨rfl, hab⟩
      · exact absurd (Or.inl hzx) hpa
      · exact List.cons_prefix_cons.mpr ⟨rfl, ih hp hab fun h => hpa (Or.inr ⟨rfl, h⟩)⟩

theorem isPrefixOf_iff {pre s : String} : pre.isPrefixOf s ↔ pre.toList <+: s.toList := by
  simp [String.isPrefixOf]

theorem not_lt_of_isPrefixOf {pre s : String} (h : pre.isPrefixOf s) : ¬ s < pre := by
  rw [String.lt_iff_toList_lt]
  exact (isPrefixOf_iff.mp h).le

theorem takeWhile_eq_filter_of_ascending (pre : String) :
    ∀ {l : List String}, l.Pairwise (· < ·) → (∀ k ∈ l.head?, ¬ k < pre) →
      l.takeWhile (pre.isPrefixOf ·) = l.filter (pre.isPrefixOf ·)
  | [], _, _ => rfl
  | a :: rest, hl, ha => by
    have ha : ¬ a < pre := ha a rfl
    obtain ⟨hrest, hl⟩ := List.pairwise_cons.mp hl
    by_cases hp : pre.isPrefixOf a
    · have hhead : ∀ k ∈ rest.head?, ¬ k < pre := fun k hk hk' =>
        ha (lt_trans (hrest k (List.mem_of_mem_head? hk)) hk')
      simp only [List.takeWhile_cons_of_pos hp, List.filter_cons_of_pos hp,
        takeWhile_eq_filter_of_ascending pre hl hhead]
    · have hnone : ∀ k ∈ rest, pre.isPrefixOf k = false := by
        intro k hk
        by_contra hk'
        have hpk : pre.toList <+: k.toList := isPrefixOf_iff.mp (Bool.not_eq_false _ ▸ hk')
        have hak : a.toList < k.toList := String.lt_iff_toList_lt.mp (hrest k hk)
        exact hp (isPrefixOf_iff.mpr (prefix_of_lt_of_not_lt hpk hak
          (by rwa [← String.lt_iff_toList_lt])))
      rw [List.takeWhile_cons_of_neg hp, List.filter_cons_of_neg hp,
        List.filter_eq_nil_iff.mpr (fun k hk => by simp [hnone k hk])]

end Prefix

section Collect

variable {κ β : Type} {cmp : κ → κ → Ordering}

variable (cmp) in
/-- Adds what `g` makes of a key to an ascending list, skips the key, or fails as `g` does. -/
def collectStep (g : String → Except Fault (Option κ)) (acc : List κ) (key : String) :
    Except Fault (List κ) :=
  match g key with
  | .error e => .error e
  | .ok none => .ok acc
  | .ok (some x) => .ok (insertAscending cmp x acc)

def firstFault (g : String → Except Fault β) : List String → Option Fault
  | [] => none
  | k :: ks =>
    match g k with
    | .error e => some e
    | .ok _ => firstFault g ks

theorem collect_eq_error (g : String → Except Fault (Option κ)) (keys : List String)
    (acc : List κ) (e : Fault) :
    keys.foldlM (collectStep cmp g) acc = .error e ↔ firstFault g keys = some e := by
  induction keys generalizing acc with
  | nil => simp [firstFault, pure, Except.pure]
  | cons k ks ih =>
    rw [List.foldlM_cons, firstFault]
    cases hg : g k with
    | error e' => simp [collectStep, hg, bind, Except.bind]
    | ok o =>
      cases o with
      | none => simpa [collectStep, hg, bind, Except.bind] using ih acc
      | some x => simpa [collectStep, hg, bind, Except.bind] using ih (insertAscending cmp x acc)

theorem collect_eq_ok [Std.TransCmp cmp] [Std.LawfulEqCmp cmp]
    (g : String → Except Fault (Option κ)) (keys : List String) {acc xs : List κ}
    (h : keys.foldlM (collectStep cmp g) acc = .ok xs)
    (hacc : acc.Pairwise (cmp · · = .lt)) :
    xs.Pairwise (cmp · · = .lt) ∧ ∀ y, y ∈ xs ↔ y ∈ acc ∨ ∃ k ∈ keys, g k = .ok (some y) := by
  induction keys generalizing acc with
  | nil =>
    cases h
    exact ⟨hacc, fun y => by simp⟩
  | cons k ks ih =>
    rw [List.foldlM_cons] at h
    rcases hg : g k with e | (_ | x) <;> simp only [collectStep, hg, bind, Except.bind] at h
    · cases h
    · obtain ⟨hxs, hmem⟩ := ih h hacc
      refine ⟨hxs, fun y => ?_⟩
      rw [hmem]
      simp only [List.mem_cons, exists_eq_or_imp, hg, Except.ok.injEq, reduceCtorEq, false_or]
    · obtain ⟨hxs, hmem⟩ := ih h (insertAscending_ascending hacc)
      refine ⟨hxs, fun y => ?_⟩
      rw [hmem, mem_insertAscending]
      simp only [List.mem_cons, exists_eq_or_imp, hg, Except.ok.injEq, Option.some.injEq]
      tauto

theorem collect_isOk (g : String → Except Fault (Option κ)) (keys : List String) (acc : List κ)
    (h : firstFault g keys = none) : ∃ xs, keys.foldlM (collectStep cmp g) acc = .ok xs := by
  cases hc : keys.foldlM (collectStep cmp g) acc with
  | ok xs => exact ⟨xs, rfl⟩
  | error e => simp [(collect_eq_error g keys acc e).mp hc] at h

theorem collect_ok_of_mem (g : String → Except Fault (Option κ)) {keys : List String}
    {acc xs : List κ} (h : keys.foldlM (collectStep cmp g) acc = .ok xs) {k : String}
    (hk : k ∈ keys) : ∃ o, g k = .ok o := by
  induction keys generalizing acc with
  | nil => cases hk
  | cons k' ks ih =>
    rw [List.foldlM_cons] at h
    rcases hg : g k' with e | (_ | x) <;> simp only [collectStep, hg, bind, Except.bind] at h
    · cases h
    all_goals
      rcases List.mem_cons.mp hk with rfl | hk
      · exact ⟨_, hg⟩
      · exact ih h hk

end Collect

namespace Blobs

def under (b : Blobs) (pre : String) : List String :=
  b.keys.filter (pre.isPrefixOf ·)

theorem keys_ascending (b : Blobs) : b.keys.Pairwise (· < ·) :=
  b.objects.ordered_keys.imp compare_lt_iff_lt.mp

theorem mem_keys {b : Blobs} {k : String} : k ∈ b.keys ↔ (b.get? k).isSome := by
  simp [keys, get?, Std.ExtTreeMap.mem_keys, Std.ExtTreeMap.isSome_getElem?_eq_contains,
    Std.ExtTreeMap.contains_iff_mem]

theorem mem_under {b : Blobs} {pre k : String} :
    k ∈ b.under pre ↔ k ∈ b.keys ∧ pre.isPrefixOf k := by
  simp [under]

theorem under_ascending (b : Blobs) (pre : String) : (b.under pre).Pairwise (· < ·) :=
  b.keys_ascending.filter _

theorem keysFrom_eq_under (b : Blobs) (pre : String) : b.keysFrom pre = b.under pre := by
  have hsplit := List.takeWhile_append_dropWhile (p := fun k => compare k pre == .lt) (l := b.keys)
  have hlow : (b.keys.takeWhile fun k => compare k pre == .lt).filter (pre.isPrefixOf ·) = [] := by
    refine List.filter_eq_nil_iff.mpr fun k hk hp => ?_
    have hlt : compare k pre = .lt := by simpa using List.all_eq_true.mp List.all_takeWhile k hk
    exact not_lt_of_isPrefixOf hp (compare_lt_iff_lt.mp hlt)
  have hhigh := b.keys_ascending.sublist (List.dropWhile_sublist (l := b.keys)
    (fun k => compare k pre == .lt))
  have hhead : ∀ k ∈ (b.keys.dropWhile fun k => compare k pre == .lt).head?, ¬ k < pre := by
    intro k hk hlt
    have hnot := List.head?_dropWhile_not (fun k => compare k pre == .lt) b.keys
    rw [Option.mem_def.mp hk] at hnot
    simp [compare_lt_iff_lt.mpr hlt] at hnot
  rw [keysFrom, takeWhile_eq_filter_of_ascending pre hhigh hhead, under, ← hsplit,
    List.filter_append, hlow, List.nil_append, hsplit]

end Blobs

/-- The prefix listing that a store gives when it has none of its own: it lists every key and
keeps those that start with the prefix, in listing order. -/
def StoreAnswer.filteredListing {σ : Type} (st : StoreAnswer σ) (pre : String) (s : σ) :
    Except StoreError (List String) × σ :=
  match st .listAll s with
  | (.ok keys, s') => (.ok (List.filter (pre.isPrefixOf ·) keys), s')
  | (.error e, s') => (.error e, s')

/-- A memory store answers a prefix listing as filtering its whole listing does: reading the
ordered keys from the prefix on gives the same keys, in the same ascending order, and leaves the
store as it was. -/
theorem Blobs.answer_listPrefix_eq_filteredListing (s : Blobs) (pre : String) :
    Blobs.answer (.listPrefix pre) s = StoreAnswer.filteredListing Blobs.answer pre s ∧
      (s.keys.filter (pre.isPrefixOf ·)).Pairwise (· < ·) := by
  refine ⟨?_, s.under_ascending pre⟩
  show (Except.ok (s.keysFrom pre), s) = (Except.ok (s.keys.filter (pre.isPrefixOf ·)), s)
  rw [Blobs.keysFrom_eq_under]
  rfl

end Quorum
