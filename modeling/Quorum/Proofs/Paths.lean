import Quorum.Path.Object

/-!
# Reading object keys back

The object key of an artifact of a version is `<chain>/<key>/<index>/<name>`, with no `/` inside
any of the four pieces. Reading a key splits it at every `/`, so a key that reads as an artifact
is the key of that artifact (`ObjectPath.render_of_parse`), and a key under the prefix of a
version that reads as an artifact is the path of that artifact in the version
(`Version.path_of_fileOf`).
-/

namespace Quorum

theorem slash_not_mem_of_validComponent {s : String} (h : validComponent s = true) :
    '/' ∉ s.toList := by
  simp_all [validComponent]

theorem slash_not_mem_indexText (i : UInt64) : '/' ∉ (indexText i).toList := by
  intro h
  have hdigit := Nat.isDigit_of_mem_toDigits (b := 10) (by decide) (by decide)
    (Nat.toList_repr ▸ h)
  revert hdigit
  decide

@[simp] theorem Artifact.name_ofName (n : String) : (Artifact.ofName n).name = n := by
  unfold Artifact.ofName
  by_cases hu : n = "unsigned"
  · simp [hu, Artifact.name]
  · by_cases hs : n = "signdata" <;> simp [hu, hs, Artifact.name]

theorem Queue.new?_eq_ok {c k : String} {q : Queue} (h : Queue.new? c k = .ok q) :
    q.chain = c ∧ q.key = k := by
  unfold Queue.new? at h
  split at h
  · split at h
    · cases h
      exact ⟨rfl, rfl⟩
    · cases h
  · cases h

theorem indexText_of_parseIndex {path seg : String} {i : UInt64} (h : parseIndex path seg = .ok i) :
    indexText i = seg := by
  unfold parseIndex at h
  split at h
  · split at h
    · rename_i he
      cases h
      exact he
    · cases h
  · cases h

theorem toList_pre (v : Version) :
    v.pre.toList = v.queue.chain.toList ++ '/' :: (v.queue.key.toList ++
      '/' :: ((indexText v.index).toList ++ ['/'])) := by
  simp [Version.pre, Version.display, Queue.display]

theorem splitOn_pre_append (v : Version) (rest : List Char) :
    (v.pre.toList ++ rest).splitOn '/' = v.queue.chain.toList :: v.queue.key.toList ::
      (indexText v.index).toList :: rest.splitOn '/' := by
  rw [toList_pre]
  simp only [List.append_assoc, List.cons_append, List.nil_append]
  rw [List.splitOn_append_cons_self_of_not_mem
      (slash_not_mem_of_validComponent v.queue.chain_valid),
    List.splitOn_append_cons_self_of_not_mem (slash_not_mem_of_validComponent v.queue.key_valid),
    List.splitOn_append_cons_self_of_not_mem (slash_not_mem_indexText v.index)]

theorem toList_of_segments {key : String} {l : List String} (h : segments key = l) :
    key.toList = ['/'].intercalate (l.map String.toList) := by
  rw [← h, segments, List.map_map]
  simp only [Function.comp_def, String.toList_ofList, List.map_id']
  exact (List.intercalate_splitOn '/').symm

namespace ObjectPath

theorem segments_of_parse {key : String} {p : ObjectPath} (h : parse key = .ok (some p)) :
    segments key = [p.version.queue.chain, p.version.queue.key, indexText p.version.index,
      p.artifact.name] := by
  unfold parse at h
  split at h
  · cases h
  · split at h
    · rename_i c k i f hseg
      split at h
      · split at h
        · cases h
        · rename_i q hq
          split at h
          · cases h
          · rename_i index hindex
            cases h
            obtain ⟨rfl, rfl⟩ := Queue.new?_eq_ok hq
            simp [hseg, Queue.version, indexText_of_parseIndex hindex]
      · cases h
    · split at h <;> cases h

theorem ofName_of_parse {key : String} {p : ObjectPath} (h : parse key = .ok (some p)) :
    Artifact.ofName p.artifact.name = p.artifact := by
  unfold parse at h
  split at h
  · cases h
  · split at h
    · split at h
      · split at h
        · cases h
        · split at h
          · cases h
          · cases h
            simp
      · cases h
    · split at h <;> cases h

theorem endsInSlash_of_parse {key : String} (h : parse key = .ok none) : endsInSlash key = true := by
  unfold parse at h
  split at h
  · assumption
  · split at h
    · split at h
      · split at h
        · cases h
        · split at h <;> cases h
      · cases h
    · split at h <;> cases h

theorem render_of_parse {key : String} {p : ObjectPath} (h : parse key = .ok (some p)) :
    p.render = key := by
  apply String.toList_inj.mp
  rw [toList_of_segments (segments_of_parse h)]
  simp [render, Version.path, toList_pre]

end ObjectPath

theorem Version.path_of_fileOf {v : Version} {key : String} {a : Artifact}
    (h : v.fileOf key = .ok (some a)) : v.path a = key := by
  unfold Version.fileOf at h
  split at h
  · rename_i hpre
    obtain ⟨rest, hrest⟩ := List.isPrefixOf_iff_prefix.mp hpre
    cases hp : ObjectPath.parse key with
    | error e => simp [hp, Except.map] at h
    | ok o =>
      cases o with
      | none => simp [hp, Except.map] at h
      | some p =>
        simp only [hp, Except.map, Option.map_some, Except.ok.injEq, Option.some.injEq] at h
        subst h
        have hseg := ObjectPath.segments_of_parse hp
        rw [segments, ← hrest, splitOn_pre_append] at hseg
        simp only [List.map_cons, List.cons.injEq] at hseg
        obtain ⟨-, -, -, hname⟩ := hseg
        have hrest' : rest = p.artifact.name.toList := by
          rw [← (List.intercalate_splitOn '/' : ['/'].intercalate (rest.splitOn '/') = rest)]
          cases hs : rest.splitOn '/' with
          | nil => exact absurd hs (List.splitOn_ne_nil _ _)
          | cons r rs =>
            rw [hs] at hname
            simp only [List.map_cons, List.cons.injEq, List.map_eq_nil_iff] at hname
            obtain ⟨hr, rfl⟩ := hname
            simp [← hr]
        apply String.toList_inj.mp
        simp [Version.path, ← hrest, hrest']
  · cases h

theorem Version.ofName_of_fileOf {v : Version} {key : String} {a : Artifact}
    (h : v.fileOf key = .ok (some a)) : Artifact.ofName a.name = a := by
  unfold Version.fileOf at h
  split at h
  · cases hp : ObjectPath.parse key with
    | error e => simp [hp, Except.map] at h
    | ok o =>
      cases o with
      | none => simp [hp, Except.map] at h
      | some p =>
        simp only [hp, Except.map, Option.map_some, Except.ok.injEq, Option.some.injEq] at h
        subst h
        exact ObjectPath.ofName_of_parse hp
  · cases h

theorem Version.endsInSlash_of_fileOf {v : Version} {key : String} (h : v.fileOf key = .ok none) :
    endsInSlash key = true := by
  unfold Version.fileOf at h
  split at h
  · cases hp : ObjectPath.parse key with
    | error e => simp [hp, Except.map] at h
    | ok o =>
      cases o with
      | none => exact ObjectPath.endsInSlash_of_parse hp
      | some p => simp [hp, Except.map] at h
  · cases h

theorem Version.fileOf_path {v : Version} {a : Artifact} {x : Option Artifact}
    (hvalid : validComponent a.name = true) (hcanon : Artifact.ofName a.name = a)
    (h : v.fileOf (v.path a) = .ok x) : x = some a := by
  cases x with
  | none =>
    have hslash := Version.endsInSlash_of_fileOf h
    have hne : a.name.toList ≠ [] := by simp_all [validComponent]
    obtain ⟨c, hc⟩ := Option.isSome_iff_exists.mp (List.getLast?_isSome.mpr hne)
    have hmem : c ∈ a.name.toList := List.mem_of_getLast? hc
    have hlast : (v.path a).toList.getLast? = some c := by
      simp [Version.path, List.getLast?_append, hc]
    simp only [endsInSlash, hlast, beq_iff_eq, Option.some.injEq] at hslash
    exact absurd (hslash ▸ hmem) (slash_not_mem_of_validComponent hvalid)
  | some a' =>
    have hpath := Version.path_of_fileOf h
    have hname : a'.name = a.name := by
      simpa [Version.path] using hpath
    rw [← Version.ofName_of_fileOf h, hname, hcanon]

end Quorum
