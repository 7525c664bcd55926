import Quorum.Cli.Run
import Quorum.Proofs.Mirror

/-!
# Paths by their segments

A text names a path through its segments, the pieces between its slashes. The host resolves a
text from the working directory unless it starts with a slash, drops the empty names of doubled
slashes, and keeps a slash at the end as an empty last name; all of this is read off the segments
alone (`resolveIn_eq_resolveSegments`). A relative path whose segments are all normal names, none
empty, `.` or `..`, joined to a local directory, leads to that directory followed by exactly
those names (`resolveIn_joinLocal`), and its parent to the directory or a path between the two
(`resolveIn_parentOf`).
-/

namespace Quorum

/-- A name that a path takes as one step down: not empty, neither `.` nor `..`, and free of
`/`. -/
def NormalName (name : String) : Prop :=
  name ≠ "" ∧ name ≠ "." ∧ name ≠ ".." ∧ '/' ∉ name.toList

theorem not_mem_of_mem_splitOn {a : Char} : ∀ {xs l : List Char}, l ∈ xs.splitOn a → a ∉ l
  | [], l, h => by
    rw [List.splitOn_nil, List.mem_singleton] at h
    subst h
    exact List.not_mem_nil
  | x :: xs, l, h => by
    rw [List.splitOn_cons_eq_if_modifyHead] at h
    split at h
    · rcases List.mem_cons.mp h with rfl | h
      · exact List.not_mem_nil
      · exact not_mem_of_mem_splitOn h
    · rename_i hx
      obtain ⟨hd, tl, htl⟩ := List.exists_cons_of_ne_nil (List.splitOn_ne_nil a xs)
      rw [htl, List.modifyHead_cons] at h
      rcases List.mem_cons.mp h with rfl | h
      · rw [List.mem_cons, not_or]
        exact ⟨fun hax => hx (by simp [hax]),
          not_mem_of_mem_splitOn (htl ▸ List.mem_cons_self)⟩
      · exact not_mem_of_mem_splitOn (htl ▸ List.mem_cons_of_mem hd h)

theorem slash_not_mem_of_mem_segments {s n : String} (h : n ∈ segments s) : '/' ∉ n.toList := by
  obtain ⟨l, hl, rfl⟩ := List.mem_map.mp h
  rw [String.toList_ofList]
  exact not_mem_of_mem_splitOn hl

theorem normalName_of_mem_segments {s n : String} (h : n ∈ segments s)
    (hn : (n.isEmpty || n == "." || n == "..") = false) : NormalName n := by
  simp only [Bool.or_eq_false_iff, beq_eq_false_iff_ne] at hn
  exact ⟨by rintro rfl; simp at hn, hn.1.2, hn.2, slash_not_mem_of_mem_segments h⟩

/-! ## Paths by their segments -/

@[simp] theorem segments_empty : segments "" = [""] := by
  simp [segments]

theorem segments_eq_empty_iff {s : String} : segments s = [""] ↔ s = "" := by
  refine ⟨fun h => ?_, fun h => h ▸ segments_empty⟩
  rw [← String.toList_inj, toList_of_segments h]
  simp

theorem head?_splitOn_cons_eq_nil_iff {c : Char} {l : List Char} :
    ((c :: l).splitOn '/').head? = some [] ↔ c = '/' := by
  rw [List.splitOn_cons_eq_if_modifyHead]
  obtain ⟨hd, tl, heq⟩ := List.exists_cons_of_ne_nil (List.splitOn_ne_nil '/' l)
  by_cases hc : c = '/'
  · simp [hc]
  · simp [hc, heq]

theorem head?_segments_eq_empty_iff {s : String} :
    (segments s).head? = some "" ↔ (s.toList.splitOn '/').head? = some [] := by
  simp [segments, List.head?_map]

theorem startsWith_slash_iff {s : String} :
    s.startsWith "/" = true ↔ (segments s).head? = some "" ∧ s ≠ "" := by
  rw [String.startsWith_string_iff, head?_segments_eq_empty_iff, ← String.toList_inj.ne]
  cases s.toList with
  | nil => simp
  | cons c l => simp [head?_splitOn_cons_eq_nil_iff, eq_comm]

theorem endsWith_slash_iff_suffix {s : String} : s.endsWith "/" = true ↔ ['/'] <:+ s.toList := by
  rw [String.endsWith_eq_endsWith_toSlice, String.Slice.endsWith_string_iff, String.copy_toSlice]
  rfl

theorem suffix_slash_iff {l : List Char} :
    ['/'] <:+ l ↔ (l.splitOn '/').getLast? = some [] ∧ l ≠ [] := by
  constructor
  · rintro ⟨l₀, rfl⟩
    rw [List.splitOn_append_cons_self]
    simp
  · rintro ⟨hlast, hl⟩
    obtain ⟨L, hL⟩ := List.getLast?_eq_some_iff.mp hlast
    have hjoin : ['/'].intercalate (l.splitOn '/') = l := List.intercalate_splitOn '/'
    have hL' : L ≠ [] := by
      rintro rfl
      apply hl
      rw [← hjoin, hL]
      rfl
    refine ⟨['/'].intercalate L, ?_⟩
    rw [← hjoin, hL, Directory.intercalate_concat hL']

theorem endsWith_slash_iff {s : String} :
    s.endsWith "/" = true ↔ (segments s).getLast? = some "" ∧ s ≠ "" := by
  rw [endsWith_slash_iff_suffix, suffix_slash_iff, ← String.toList_inj.ne]
  simp [segments, List.getLast?_map]

/-- The directory reached from `cwd` by the names of `segs`: from the top when the first segment
is empty (a leading slash), with the empty names left out. -/
def segmentsBase (cwd segs : List String) : List String :=
  (if segs.head? = some "" then [] else cwd) ++ segs.filter (!·.isEmpty)

/-- Where a path with the segments `segs` leads from `cwd`: the empty path stays empty, and a
slash at the end is kept as an empty last name. -/
def resolveSegments (cwd segs : List String) : List String :=
  if segs = [""] then [""]
  else segmentsBase cwd segs ++
    (if segs.filter (!·.isEmpty) ≠ [] ∧ segs.getLast? = some "" then [""] else [])

theorem resolveIn_eq_resolveSegments (cwd : List String) (path : String) :
    Host.resolveIn cwd path = resolveSegments cwd (segments path) := by
  by_cases hp : path = ""
  · subst hp
    simp [Host.resolveIn, resolveSegments]
  · have hs : segments path ≠ [""] := mt segments_eq_empty_iff.mp hp
    have hstart : path.startsWith "/" = true ↔ (segments path).head? = some "" := by
      rw [startsWith_slash_iff, and_iff_left hp]
    have hend : path.endsWith "/" = true ↔ (segments path).getLast? = some "" := by
      rw [endsWith_slash_iff, and_iff_left hp]
    simp only [Host.resolveIn, resolveSegments, segmentsBase, hs, if_false, String.isEmpty_iff,
      hp]
    rw [show (path.toList.splitOn '/').map String.ofList = segments path from rfl]
    simp only [hstart, hend, Bool.and_eq_true, Bool.not_eq_true', List.isEmpty_eq_false_iff]

theorem segmentsBase_append (cwd S : List String) {X : List String} (hX : ∀ n ∈ X, n ≠ "") :
    segmentsBase cwd (S ++ X) = segmentsBase cwd S ++ X := by
  have hfilter : X.filter (!·.isEmpty) = X :=
    List.filter_eq_self.mpr fun n hn => by simpa [String.isEmpty_iff] using hX n hn
  have hhead : (S ++ X).head? = some "" ↔ S.head? = some "" := by
    cases S with
    | nil => simpa using fun h => hX "" (List.mem_of_head? h) rfl
    | cons a S => simp
  simp only [segmentsBase, hhead, List.filter_append, hfilter, List.append_assoc]

theorem resolveSegments_append (cwd S : List String) {X : List String} (hX : X ≠ [])
    (hXn : ∀ n ∈ X, n ≠ "") : resolveSegments cwd (S ++ X) = segmentsBase cwd S ++ X := by
  obtain ⟨x, hx⟩ := List.getLast?_isSome.mpr hX |> Option.isSome_iff_exists.mp
  have hlast : (S ++ X).getLast? ≠ some "" := by
    rw [List.getLast?_append, hx]
    simpa using fun h => hXn x (List.mem_of_getLast? hx) h
  have hsingle : S ++ X ≠ [""] := fun h => hlast (by rw [h]; rfl)
  simp only [resolveSegments, hsingle, hlast, and_false, if_false, List.append_nil,
    segmentsBase_append cwd S hXn]

theorem resolveSegments_within (cwd S : List String) :
    resolveSegments cwd S = [""] ∨ resolveSegments cwd S <+: segmentsBase cwd S ++ [""] := by
  unfold resolveSegments
  split
  · exact .inl rfl
  · refine .inr ?_
    split
    · exact List.prefix_refl _
    · rw [List.append_nil]
      exact List.prefix_append _ _

theorem segmentsBase_append_empty (cwd : List String) {S : List String} (hS : S ≠ []) :
    segmentsBase cwd (S ++ [""]) = segmentsBase cwd S := by
  have hhead : (S ++ [""]).head? = S.head? := by
    obtain ⟨a, S, rfl⟩ := List.exists_cons_of_ne_nil hS
    rfl
  simp [segmentsBase, hhead, List.filter_append]

theorem segments_intercalate {names : List String} (hne : names ≠ [])
    (h : ∀ n ∈ names, '/' ∉ n.toList) : segments ("/".intercalate names) = names := by
  rw [segments, String.toList_intercalate, show "/".toList = ['/'] from rfl,
    List.splitOn_intercalate '/' (by simpa using h) (by simpa using hne)]
  simp [Function.comp_def]

/-! ## Local paths -/

/-- The directory that the local path `dir` names from the working directory `cwd`: the empty
text names `cwd` itself, and empty names (doubled slashes, a slash at the end) add nothing. -/
def localDir (cwd : List String) (dir : String) : List String :=
  (if dir.startsWith "/" then [] else cwd) ++ (segments dir).filter (!·.isEmpty)

theorem localDir_eq_segmentsBase (cwd : List String) {dir : String} (h : dir ≠ "") :
    localDir cwd dir = segmentsBase cwd (segments dir) := by
  simp only [localDir, segmentsBase, startsWith_slash_iff, and_iff_left h]

theorem normal_of_isSafeRelative {rel : String} (h : Cli.isSafeRelative rel = true) :
    rel ≠ "" ∧ ∀ n ∈ segments rel, NormalName n := by
  simp only [Cli.isSafeRelative, Bool.and_eq_true, Bool.not_eq_true',
    List.all_eq_true, bne_iff_ne, ne_eq] at h
  refine ⟨by simpa using h.1, fun n hn => ?_⟩
  obtain ⟨⟨h0, h1⟩, h2⟩ := h.2 n hn
  exact ⟨by simpa [String.isEmpty_iff] using h0, h1, h2, slash_not_mem_of_mem_segments hn⟩

theorem segments_joinLocal (dir rel : String) : ∃ S, segments (Cli.joinLocal dir rel) =
    S ++ segments rel ∧ ∀ cwd, localDir cwd dir = segmentsBase cwd S := by
  unfold Cli.joinLocal
  by_cases hd : dir = ""
  · subst hd
    exact ⟨[], by simp, fun cwd => by simp [localDir, segmentsBase]⟩
  rw [if_neg (by simpa [String.isEmpty_iff] using hd)]
  by_cases he : dir.endsWith "/" = true
  · -- the slash at the end of `dir` is the one that separates it from `rel`
    rw [if_pos he]
    obtain ⟨d, hdl⟩ := endsWith_slash_iff_suffix.mp he
    have hdir : segments dir = (d.splitOn '/').map String.ofList ++ [""] := by
      simp [segments, ← hdl, List.splitOn_append_cons_self]
    refine ⟨(d.splitOn '/').map String.ofList, ?_, fun cwd => ?_⟩
    · simp [segments, ← hdl, List.splitOn_append_cons_self]
    · rw [localDir_eq_segmentsBase cwd hd, hdir,
        segmentsBase_append_empty cwd (by simp [List.splitOn_ne_nil])]
  · rw [if_neg he]
    refine ⟨segments dir, ?_, fun cwd => localDir_eq_segmentsBase cwd hd⟩
    simp [segments, List.splitOn_append_cons_self]

theorem resolveIn_prefix_localDir (cwd : List String) (dir : String) :
    Host.resolveIn cwd dir = [""] ∨ Host.resolveIn cwd dir <+: localDir cwd dir ++ [""] := by
  by_cases hd : dir = ""
  · subst hd
    exact .inl rfl
  · rw [resolveIn_eq_resolveSegments, localDir_eq_segmentsBase cwd hd]
    exact resolveSegments_within cwd _

theorem resolveIn_joinLocal (cwd : List String) (dir : String) {rel : String}
    (h : Cli.isSafeRelative rel = true) :
    Host.resolveIn cwd (Cli.joinLocal dir rel) = localDir cwd dir ++ segments rel := by
  obtain ⟨S, hseg, hbase⟩ := segments_joinLocal dir rel
  rw [resolveIn_eq_resolveSegments, hseg, resolveSegments_append cwd S
    (Directory.segments_ne_nil rel) (fun n hn => ((normal_of_isSafeRelative h).2 n hn).1), hbase]

theorem resolveIn_parentOf (cwd : List String) (dir : String) {rel p : String}
    (h : Cli.isSafeRelative rel = true) (hp : Cli.parentOf (Cli.joinLocal dir rel) = some p) :
    Host.resolveIn cwd p = [""] ∨ Host.resolveIn cwd p <+: localDir cwd dir ++ [""] ∨
      Host.resolveIn cwd p = localDir cwd dir ++ (segments rel).dropLast := by
  obtain ⟨S, hseg, hbase⟩ := segments_joinLocal dir rel
  have hnames : (segments (Cli.joinLocal dir rel)).dropLast = S ++ (segments rel).dropLast := by
    rw [hseg, List.dropLast_append_of_ne_nil (Directory.segments_ne_nil rel)]
  unfold Cli.parentOf at hp
  split at hp
  · cases hp
  · rename_i hne
    cases hp
    have hsegp : segments ("/".intercalate (segments (Cli.joinLocal dir rel)).dropLast) =
        S ++ (segments rel).dropLast := by
      rw [segments_intercalate hne fun n hn => slash_not_mem_of_mem_segments
        (List.dropLast_subset _ hn), hnames]
    rw [resolveIn_eq_resolveSegments, hsegp, hbase]
    by_cases hB : (segments rel).dropLast = []
    · rw [hB, List.append_nil]
      exact (resolveSegments_within cwd S).imp_right .inl
    · exact .inr (.inr (resolveSegments_append cwd S hB fun n hn =>
        ((normal_of_isSafeRelative h).2 n (List.dropLast_subset _ hn)).1))

end Quorum
