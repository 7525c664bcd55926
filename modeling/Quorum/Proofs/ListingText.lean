import Quorum.Cli.Listing
import Quorum.Proofs.Census

/-!
# How the full listing is printed

The full listing of the store prints a separator, then one line per version, then a separator
and the keys that fit no version. Printing only compares each version's queue with the one
before it and puts a separator where the queue changes. Versions are ordered by queue first and
index second, and a listing's versions ascend, so the versions of one queue stand together and
each queue makes one group of lines (`Listing.versionLines_grouped`).
-/

namespace Quorum

instance : Std.TransCmp Queue.compare :=
  inferInstanceAs (Std.TransCmp (compareLex (compareOn fun q : Queue => q.chain)
    (compareOn fun q : Queue => q.key)))

instance : Std.LawfulEqCmp Queue.compare where
  compare_self := by simp [Queue.compare]
  eq_of_compare {q q'} h := by
    simp only [Queue.compare, Ordering.then_eq_eq, Std.LawfulEqCmp.compare_eq_iff_eq] at h
    exact Queue.eq_of_parts h.1 h.2

theorem Queue.compare_self (q : Queue) : q.compare q = .eq := Std.ReflCmp.compare_self

namespace Version

theorem queue_compare_ne_gt {v w : Version} (h : v.compare w = .lt) :
    v.queue.compare w.queue ≠ .gt := by
  intro hg
  simp [Version.compare, hg] at h

theorem queue_compare_lt {v w : Version} (h : v.compare w = .lt) (hq : v.queue ≠ w.queue) :
    v.queue.compare w.queue = .lt := by
  cases hc : v.queue.compare w.queue with
  | lt => rfl
  | eq => exact absurd (Std.LawfulEqCmp.eq_of_compare hc) hq
  | gt => exact absurd hc (queue_compare_ne_gt h)

theorem index_lt_of_compare {v w : Version} (h : v.compare w = .lt) (hq : v.queue = w.queue) :
    v.index < w.index := by
  simp only [Version.compare, hq, Std.ReflCmp.compare_self, Ordering.eq_then] at h
  exact compareOfLessAndEq_eq_lt.mp h

end Version

namespace Listing

def queueLines (vs : List (Version × Contents)) (q : Queue) : List String :=
  (vs.filter (·.1.queue = q)).map fun e => versionLine e.1 e.2

theorem queueLines_cons_self (v : Version) (c : Contents) (vs : List (Version × Contents)) :
    queueLines ((v, c) :: vs) v.queue = versionLine v c :: queueLines vs v.queue := by
  simp [queueLines]

theorem queueLines_cons_of_ne {v : Version} {q : Queue} (c : Contents)
    (vs : List (Version × Contents)) (h : v.queue ≠ q) :
    queueLines ((v, c) :: vs) q = queueLines vs q := by
  simp [queueLines, h]

theorem queueLines_eq_nil {vs : List (Version × Contents)} {q : Queue}
    (h : ∀ e ∈ vs, e.1.queue ≠ q) : queueLines vs q = [] := by
  simp only [queueLines, List.map_eq_nil_iff, List.filter_eq_nil_iff, decide_eq_true_eq]
  exact h

theorem versionLines_some_cons (q : Queue) (v : Version) (c : Contents)
    (vs : List (Version × Contents)) :
    versionLines (some q) ((v, c) :: vs) =
      (if q = v.queue then [] else [separator]) ++ versionLines none ((v, c) :: vs) := by
  simp [versionLines]

theorem versionLines_none_cons (v : Version) (c : Contents) (vs : List (Version × Contents)) :
    versionLines none ((v, c) :: vs) = versionLine v c :: versionLines (some v.queue) vs := by
  simp [versionLines]

instance (vs : List (Version × Contents)) : Decidable (Ascending vs) :=
  inferInstanceAs (Decidable ((vs.map Prod.fst).Pairwise _))

theorem Ascending.head_lt {v : Version} {c : Contents} {vs : List (Version × Contents)}
    (h : Ascending ((v, c) :: vs)) {e : Version × Contents} (he : e ∈ vs) : v.compare e.1 = .lt :=
  List.rel_of_pairwise_cons h (List.mem_map_of_mem he)

theorem Ascending.tail {e : Version × Contents} {vs : List (Version × Contents)}
    (h : Ascending (e :: vs)) : Ascending vs :=
  (List.pairwise_cons.mp h).2

theorem versionLines_grouped : ∀ {vs : List (Version × Contents)}, Ascending vs →
    ∃ qs : List Queue, qs.Pairwise (fun a b => a.compare b = .lt) ∧
      (∀ q, q ∈ qs ↔ ∃ e ∈ vs, e.1.queue = q) ∧
      versionLines none vs = [separator].intercalate (qs.map (queueLines vs)) ∧
      ∀ e ∈ vs.head?, qs.head? = some e.1.queue
  | [], _ => ⟨[], .nil, by simp, rfl, by simp⟩
  | (v, c) :: rest, h => by
    obtain ⟨qs, hsorted, hmem, hlines, hhead⟩ := versionLines_grouped h.tail
    cases rest with
    | nil =>
      refine ⟨[v.queue], List.pairwise_singleton _ _, fun q => ?_, ?_, by simp⟩
      · simp [eq_comm]
      · simp [versionLines, queueLines]
    | cons e rest =>
      obtain ⟨w, d⟩ := e
      have hvw : v.compare w = .lt := h.head_lt (e := (w, d)) List.mem_cons_self
      obtain ⟨qs, rfl⟩ : ∃ qs', qs = w.queue :: qs' := by
        cases qs with
        | nil => simp at hhead
        | cons q qs => exact ⟨qs, by simpa using hhead⟩
      have habove : ∀ q ∈ qs, w.queue ≠ q := by
        intro q hq heq
        have hlt := List.rel_of_pairwise_cons hsorted hq
        rw [← heq, Queue.compare_self] at hlt
        cases hlt
      by_cases hq : v.queue = w.queue
      · -- the version joins the group of the next one
        refine ⟨w.queue :: qs, hsorted, fun q => ?_, ?_, by simp [hq]⟩
        · rw [hmem]
          constructor
          · rintro ⟨u, hu, rfl⟩
            exact ⟨u, List.mem_cons_of_mem _ hu, rfl⟩
          · rintro ⟨u, hu, rfl⟩
            rcases List.mem_cons.mp hu with rfl | hu
            · exact ⟨(w, d), List.mem_cons_self, hq.symm⟩
            · exact ⟨u, hu, rfl⟩
        · have hrest : qs.map (queueLines ((v, c) :: (w, d) :: rest)) =
              qs.map (queueLines ((w, d) :: rest)) :=
            List.map_congr_left fun q hq' => queueLines_cons_of_ne c _ (hq ▸ habove q hq')
          rw [versionLines_none_cons, versionLines_some_cons, if_pos hq, List.nil_append, hlines,
            List.map_cons, List.map_cons, hrest, ← hq, queueLines_cons_self,
            List.intercalate_cons_cons_left]
      · -- the version is alone in its group: every later version has a higher queue
        have hvq : v.queue.compare w.queue = .lt := Version.queue_compare_lt hvw hq
        have hnot : ∀ u ∈ (w, d) :: rest, u.1.queue ≠ v.queue := by
          intro u hu heq
          rcases List.mem_cons.mp hu with rfl | hu
          · exact hq heq.symm
          · have hle := Version.queue_compare_ne_gt (h.tail.head_lt hu)
            rw [heq] at hle
            exact hle (Std.OrientedCmp.gt_of_lt hvq)
        have hrest : (w.queue :: qs).map (queueLines ((v, c) :: (w, d) :: rest)) =
            (w.queue :: qs).map (queueLines ((w, d) :: rest)) := by
          refine List.map_congr_left fun q hq' => queueLines_cons_of_ne c _ fun heq => ?_
          obtain ⟨u, hu, rfl⟩ := (hmem q).mp hq'
          exact hnot u hu heq.symm
        refine ⟨v.queue :: w.queue :: qs, List.pairwise_cons.mpr ⟨fun q hq' => ?_, hsorted⟩,
          fun q => ?_, ?_, by simp⟩
        · obtain ⟨u, hu, rfl⟩ := (hmem q).mp hq'
          exact Version.queue_compare_lt (h.head_lt hu) (hnot u hu).symm
        · rw [List.mem_cons, hmem]
          constructor
          · rintro (rfl | ⟨u, hu, rfl⟩)
            · exact ⟨(v, c), List.mem_cons_self, rfl⟩
            · exact ⟨u, List.mem_cons_of_mem _ hu, rfl⟩
          · rintro ⟨u, hu, rfl⟩
            rcases List.mem_cons.mp hu with rfl | hu
            · exact .inl rfl
            · exact .inr ⟨u, hu, rfl⟩
        · rw [versionLines_none_cons, versionLines_some_cons, if_neg hq, hlines,
            List.map_cons (a := v.queue), hrest, queueLines_cons_self, queueLines_eq_nil hnot,
            List.intercalate_cons_of_ne_nil (by simp)]
          rfl

/-- How a listing of the whole store is printed by queue: a separator, then one group of lines
for each queue present, queues ascending and each once, a group holding the line of each version
of its queue in ascending index order, a separator between two groups and after the last, and
then the keys that fit no version, if there are any. -/
def GroupedByQueue (l : Listing) : Prop :=
  ∃ qs : List Queue, qs.Pairwise (fun a b => a.compare b = .lt) ∧
    (∀ q, q ∈ qs ↔ ∃ e ∈ l.versions, e.1.queue = q) ∧
    (∀ q ∈ qs, ((l.versions.filter (·.1.queue = q)).map (·.1.index)).Pairwise (· < ·)) ∧
    l.render = String.join ((separator :: [separator].intercalate (qs.map (queueLines l.versions)) ++
      separator :: (if l.unrecognized.isEmpty then []
        else "unrecognized:" :: l.unrecognized.map ("  " ++ ·))).map (· ++ "\n"))

/-- Every listing is printed by queue, its versions ascending as they do in every listing. -/
theorem render_grouped_by_queue (l : Listing) : l.GroupedByQueue := by
  have h := l.ascending
  obtain ⟨qs, hsorted, hmem, hlines, -⟩ := versionLines_grouped h
  refine ⟨qs, hsorted, hmem, fun q _ => ?_, by simp [render, hlines]⟩
  -- within one queue, versions ascend by index
  rw [List.pairwise_map]
  refine ((List.pairwise_map.mp h).filter _).imp_of_mem fun {a b} ha hb hab => ?_
  simp only [List.mem_filter, decide_eq_true_eq] at ha hb
  exact Version.index_lt_of_compare hab (ha.2.trans hb.2.symm)

def twoQueues : Listing where
  versions := [(⟨⟨"cosmoshub", "a", by decide, by decide⟩, 0⟩, ⟨true, true, []⟩),
    (⟨⟨"cosmoshub", "a", by decide, by decide⟩, 1⟩, ⟨true, true, []⟩),
    (⟨⟨"cosmoshub", "b", by decide, by decide⟩, 0⟩, ⟨true, true, ["x"]⟩)]
  unrecognized := ["stray.txt"]
  ascending := by decide

theorem twoQueues_grouped_by_queue : Ascending twoQueues.versions ∧ twoQueues.GroupedByQueue :=
  ⟨twoQueues.ascending, render_grouped_by_queue twoQueues⟩

end Listing

end Quorum
