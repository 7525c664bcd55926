import Quorum.Host.Files
import Quorum.Proofs.Listing
import Mathlib.Data.List.Infix

/-!
# Plain paths in a file tree

A path whose names are all plain (not empty, `.` or `..`, within the longest name and free of NUL
bytes) and whose text fits resolves by walking the directories above it, name by name. When every
path above it is a directory, it resolves to itself and each operation acts on what it holds; when
no path above it is a file, the walk can only stop at a missing directory, and the path is
missing as a whole. The directory entries of a path are the paths one name below it.
-/

namespace Quorum

namespace FileTree

def PlainName (name : String) : Prop :=
  name ≠ "" ∧ name ≠ "." ∧ name ≠ ".." ∧ name.utf8ByteSize ≤ nameMax ∧ '\x00' ∉ name.toList

instance (name : String) : Decidable (PlainName name) :=
  inferInstanceAs (Decidable (_ ∧ _))

def PlainPath (p : List String) : Prop :=
  p ≠ [] ∧ (∀ name ∈ p, PlainName name) ∧ textLength p < pathMax

instance (p : List String) : Decidable (PlainPath p) :=
  inferInstanceAs (Decidable (_ ∧ _))

section Lookup

variable {t : FileTree} {p q : List String}

@[simp] theorem lookup_nil (t : FileTree) : t.lookup [] = some .dir := rfl

theorem lookup_of_ne_nil (hp : p ≠ []) : t.lookup p = t.nodes[p]? := by
  simp [lookup, List.isEmpty_iff, hp]

theorem lookup_insert (hp : p ≠ []) (n : Node) (q : List String) :
    lookup ⟨t.nodes.insert p n⟩ q = if q = p then some n else t.lookup q := by
  by_cases hq : q = []
  · subst hq
    simp [Ne.symm hp]
  · rw [lookup_of_ne_nil hq, lookup_of_ne_nil hq, Std.ExtTreeMap.getElem?_insert]
    by_cases hqp : q = p
    · simp [hqp]
    · simp [hqp, Ne.symm hqp]

theorem lookup_erase (hp : p ≠ []) (q : List String) :
    lookup ⟨t.nodes.erase p⟩ q = if q = p then none else t.lookup q := by
  by_cases hq : q = []
  · subst hq
    simp [Ne.symm hp]
  · rw [lookup_of_ne_nil hq, lookup_of_ne_nil hq, Std.ExtTreeMap.getElem?_erase]
    by_cases hqp : q = p
    · simp [hqp]
    · simp [hqp, Ne.symm hqp]

end Lookup

section Length

variable {p q : List String}

theorem foldl_nameBytes (acc : Nat) (l : List String) :
    l.foldl (fun n name => n + 1 + name.utf8ByteSize) acc =
      acc + l.foldl (fun n name => n + 1 + name.utf8ByteSize) 0 := by
  induction l generalizing acc with
  | nil => rfl
  | cons name l ih =>
    rw [List.foldl_cons, List.foldl_cons, ih, ih (0 + 1 + name.utf8ByteSize)]
    omega

theorem textLength_le_of_isPrefix (hq : q ≠ []) (h : q <+: p) : textLength q ≤ textLength p := by
  obtain ⟨r, rfl⟩ := h
  simp only [textLength, List.isEmpty_iff, hq, List.append_eq_nil_iff, false_and, ↓reduceIte,
    List.foldl_append]
  rw [foldl_nameBytes _ r]
  omega

theorem length_le_textLength (p : List String) : p.length ≤ textLength p := by
  have hfold : ∀ l : List String,
      l.length ≤ l.foldl (fun n name => n + 1 + name.utf8ByteSize) 0 := by
    intro l
    induction l with
    | nil => simp
    | cons name l ih =>
      rw [List.foldl_cons, foldl_nameBytes, List.length_cons]
      omega
  rcases eq_or_ne p [] with rfl | hp
  · simp [textLength]
  · simp only [textLength, List.isEmpty_iff, hp, ↓reduceIte]
    exact hfold p

end Length

theorem PlainPath.of_isPrefix {p q : List String} (hp : PlainPath p) (hq : q ≠ []) (h : q <+: p) :
    PlainPath q :=
  ⟨hq, fun name hn => hp.2.1 name (h.subset hn),
    lt_of_le_of_lt (textLength_le_of_isPrefix hq h) hp.2.2⟩

section Walk

variable {t : FileTree}

theorem walkDirs_cons_missing {dir : List String} {name : String} (rest : List String)
    (h : PlainName name) (hl : t.lookup (dir ++ [name]) = none) :
    t.walkDirs dir (name :: rest) = .error .noEntry := by
  obtain ⟨-, hdot, hdots, hmax, -⟩ := h
  rw [walkDirs, if_neg hdot, if_neg hdots, if_neg (by omega), hl]

theorem walkDirs_cons_dir {dir : List String} {name : String} (rest : List String)
    (h : PlainName name) (hl : t.lookup (dir ++ [name]) = some .dir) :
    t.walkDirs dir (name :: rest) = t.walkDirs (dir ++ [name]) rest := by
  obtain ⟨-, hdot, hdots, hmax, -⟩ := h
  rw [walkDirs, if_neg hdot, if_neg hdots, if_neg (by omega), hl]

theorem walkDirs_of_dirs {dir names : List String} (hplain : ∀ name ∈ names, PlainName name)
    (hdirs : ∀ q, q ≠ [] → q <+: names → t.lookup (dir ++ q) = some .dir) :
    t.walkDirs dir names = .ok (dir ++ names) := by
  induction names generalizing dir with
  | nil => simp [walkDirs]
  | cons name rest ih =>
    have hname : t.lookup (dir ++ [name]) = some .dir :=
      hdirs [name] (by simp) (List.cons_prefix_cons.mpr ⟨rfl, List.nil_prefix⟩)
    have hrest : t.walkDirs (dir ++ [name]) rest = .ok (dir ++ [name] ++ rest) := by
      refine ih (fun n hn => hplain n (List.mem_cons_of_mem name hn)) fun q hq hpre => ?_
      simpa using hdirs (name :: q) (by simp) (List.cons_prefix_cons.mpr ⟨rfl, hpre⟩)
    rw [walkDirs_cons_dir rest (hplain name List.mem_cons_self) hname]
    simpa using hrest

theorem walkDirs_of_noFile {dir names : List String} (hplain : ∀ name ∈ names, PlainName name)
    (hfile : ∀ q d, q ≠ [] → q <+: names → t.lookup (dir ++ q) ≠ some (.file d)) :
    (∀ q, q ≠ [] → q <+: names → t.lookup (dir ++ q) = some .dir) ∨
      t.walkDirs dir names = .error .noEntry := by
  induction names generalizing dir with
  | nil => exact .inl fun q hq hpre => absurd (List.prefix_nil.mp hpre) hq
  | cons name rest ih =>
    have hrest := @ih (dir ++ [name]) (fun n hn => hplain n (List.mem_cons_of_mem name hn))
      fun q d hq hpre => by
        simpa using hfile (name :: q) d (by simp) (List.cons_prefix_cons.mpr ⟨rfl, hpre⟩)
    have hplain' := hplain name List.mem_cons_self
    rcases hl : t.lookup (dir ++ [name]) with _ | _ | _
    case none => exact .inr (walkDirs_cons_missing rest hplain' hl)
    case some.file d =>
      exact absurd hl (hfile [name] d (by simp) (List.cons_prefix_cons.mpr ⟨rfl, List.nil_prefix⟩))
    case some.dir =>
      rw [walkDirs_cons_dir rest hplain' hl]
      refine hrest.imp (fun hdirs q hq hpre => ?_) id
      -- a prefix of `name :: rest` is `[name]` or `name` followed by a prefix of `rest`
      obtain ⟨r, rfl, hr⟩ := (List.prefix_cons_iff.mp hpre).resolve_left hq
      rcases eq_or_ne r [] with rfl | hr'
      · exact hl
      · simpa using hdirs r hr' hr

end Walk

section Resolve

variable {t : FileTree} {p : List String}

def DirsAbove (t : FileTree) (p : List String) : Prop :=
  ∀ q, q <+: p → q ≠ p → t.lookup q = some .dir

def NoFileAbove (t : FileTree) (p : List String) : Prop :=
  ∀ q d, q <+: p → q ≠ p → t.lookup q ≠ some (.file d)

theorem length_lt_of_prefix_dropLast {q : List String} (hp : p ≠ []) (h : q <+: p.dropLast) :
    q.length < p.length := by
  have hlen := h.length_le
  rw [List.length_dropLast] at hlen
  have : p.length ≠ 0 := by simpa using hp
  omega

theorem prefix_dropLast_iff {q : List String} (hp : p ≠ []) : q <+: p.dropLast ↔ q <+: p ∧ q ≠ p := by
  constructor
  · intro h
    refine ⟨h.trans <| List.dropLast_prefix p, fun hq => ?_⟩
    have hlen := length_lt_of_prefix_dropLast hp h
    rw [hq] at hlen
    exact lt_irrefl _ hlen
  · rintro ⟨h, hq⟩
    rw [← List.dropLast_append_getLast hp] at h
    exact (List.prefix_concat_iff.mp h).resolve_left (by rwa [List.dropLast_append_getLast hp])

theorem resolve_plain (hp : PlainPath p) :
    t.resolve p =
      (t.walkDirs [] p.dropLast).bind fun dir => .ok ⟨dir ++ [p.getLast hp.1], true, false⟩ := by
  have hne : p ≠ [""] := fun h => (hp.2.1 "" (by simp [h])).1 rfl
  have hfilter : p.filter (· ≠ "") = p :=
    List.filter_eq_self.mpr fun n hn => by simpa using (hp.2.1 n hn).1
  obtain ⟨hempty, hdot, hdots, hmax, -⟩ := hp.2.1 _ (List.getLast_mem hp.1)
  simp only [resolve, if_neg hne, if_neg (Nat.not_le.mpr hp.2.2), hfilter,
    List.getLast?_eq_some_getLast hp.1, if_neg hdot, if_neg hdots, if_neg (Nat.not_lt.mpr hmax),
    Option.some_beq_some, beq_eq_false_iff_ne.mpr hempty, Bool.and_false]
  rfl

theorem resolve_of_dirsAbove (hp : PlainPath p) (h : t.DirsAbove p) :
    t.resolve p = .ok ⟨p, true, false⟩ := by
  have hwalk : t.walkDirs [] p.dropLast = .ok p.dropLast := by
    refine walkDirs_of_dirs (fun n hn => hp.2.1 n (List.dropLast_subset p hn)) fun q _ hq => ?_
    have hq' := (prefix_dropLast_iff hp.1).mp hq
    simpa using h q hq'.1 hq'.2
  rw [resolve_plain hp, hwalk]
  simp [Except.bind, List.dropLast_append_getLast hp.1]

theorem dirsAbove_or_noEntry (hp : PlainPath p) (h : t.NoFileAbove p) :
    t.DirsAbove p ∨ t.resolve p = .error .noEntry := by
  have hwalk := @walkDirs_of_noFile t [] p.dropLast
    (fun n hn => hp.2.1 n (List.dropLast_subset p hn)) fun q d _ hq => by
      have hq' := (prefix_dropLast_iff hp.1).mp hq
      simpa using h q d hq'.1 hq'.2
  refine hwalk.imp (fun hdirs q hq hne => ?_) fun hw => by rw [resolve_plain hp, hw]; rfl
  rcases eq_or_ne q [] with rfl | hq'
  · rfl
  · simpa using hdirs q hq' ((prefix_dropLast_iff hp.1).mpr ⟨hq, hne⟩)

theorem dropLast_nil_or_plainPath (hp : PlainPath p) : p.dropLast = [] ∨ PlainPath p.dropLast :=
  (eq_or_ne p.dropLast []).imp_right fun h => hp.of_isPrefix h <| List.dropLast_prefix p

theorem lookup_of_dir (hd : t.DirsAbove p) (hn : t.lookup p = some .dir) (q : List String) :
    t.lookup q = if q <+: p then some .dir else t.lookup q := by
  split
  case isTrue hq =>
    by_cases hqp : q = p
    · rw [hqp, hn]
    · exact hd q hq hqp
  case isFalse => rfl

theorem lookup_insert_dir (hp : p ≠ []) (hd : t.DirsAbove p) (q : List String) :
    lookup ⟨t.nodes.insert p .dir⟩ q = if q <+: p then some .dir else t.lookup q := by
  rw [lookup_insert hp]
  by_cases hqp : q = p
  · rw [if_pos hqp, if_pos (hqp ▸ List.prefix_refl p)]
  · rw [if_neg hqp]
    split
    case isTrue hq => exact hd q hq hqp
    case isFalse => rfl

/-- Resolving `p` finds a directory above it missing, or finds nothing at `p`. -/
def Missing (t : FileTree) (p : List String) : Prop :=
  t.resolve p = .error .noEntry ∨ (t.resolve p = .ok ⟨p, true, false⟩ ∧ t.lookup p = none)

theorem missing_of_noFileAbove (hp : PlainPath p) (h : t.NoFileAbove p)
    (hnone : t.lookup p = none) : t.Missing p :=
  (dirsAbove_or_noEntry hp h).elim (fun hd => .inr ⟨resolve_of_dirsAbove hp hd, hnone⟩) .inl

end Resolve

section Operations

variable {t : FileTree} {p : List String}

theorem locate_of_missing (h : t.Missing p) : t.locate p = .error .noEntry := by
  rcases h with h | ⟨h, hn⟩
  · simp [locate, h]
  · simp [locate, h, hn]

theorem locate_of_resolve (hr : t.resolve p = .ok ⟨p, true, false⟩) {n : Node}
    (hn : t.lookup p = some n) : t.locate p = .ok (⟨p, true, false⟩, n) := by
  cases n <;> simp [locate, hr, hn]

theorem status_of_missing (h : t.Missing p) : t.status p = .error .noEntry := by
  simp [status, locate_of_missing h, Except.map]

theorem readFile_of_missing (h : t.Missing p) : t.readFile p = .error .noEntry := by
  simp [readFile, status_of_missing h]

theorem readDir_of_missing (h : t.Missing p) : t.readDir p = .error .noEntry := by
  simp [readDir, locate_of_missing h]

theorem removeFile_of_missing (h : t.Missing p) : t.removeFile p = .error .noEntry := by
  rcases h with h | ⟨h, hn⟩
  · simp [removeFile, h]
  · simp [removeFile, h, hn]

section Resolved

variable (hr : t.resolve p = .ok ⟨p, true, false⟩)
include hr

theorem status_of_resolve {n : Node} (hn : t.lookup p = some n) : t.status p = .ok n := by
  simp [status, locate_of_resolve hr hn, Except.map]

theorem readFile_of_resolve {d : ByteArray} (hn : t.lookup p = some (.file d)) :
    t.readFile p = .ok d := by
  simp [readFile, status_of_resolve hr hn]

theorem readDir_of_resolve (hn : t.lookup p = some .dir) : t.readDir p = .ok (t.children p) := by
  simp [readDir, locate_of_resolve hr hn]

theorem mkdir_of_resolve (hn : t.lookup p = none) : t.mkdir p = .ok ⟨t.nodes.insert p .dir⟩ := by
  simp [mkdir, hr, hn]

theorem mkdir_of_resolve_some {n : Node} (hn : t.lookup p = some n) :
    t.mkdir p = .error .fileExists := by
  simp [mkdir, hr, hn]

theorem writeFile_of_resolve (hn : t.lookup p ≠ some .dir) (d : ByteArray) :
    t.writeFile p d = .ok ⟨t.nodes.insert p (.file d)⟩ := by
  rcases hl : t.lookup p with _ | _ | _
  · simp [writeFile, hr, hl]
  · simp [writeFile, hr, hl]
  · exact absurd hl hn

theorem removeFile_of_resolve {d : ByteArray} (hn : t.lookup p = some (.file d)) :
    t.removeFile p = .ok ⟨t.nodes.erase p⟩ := by
  simp [removeFile, hr, hn]

theorem removeDir_of_resolve (hp : p ≠ []) (hn : t.lookup p = some .dir) :
    t.removeDir p =
      if (t.children p).isEmpty then .ok ⟨t.nodes.erase p⟩ else .error .directoryNotEmpty := by
  simp [removeDir, locate_of_resolve hr hn, List.isEmpty_iff, hp]

end Resolved

theorem rename_of_resolve {src dst : List String} {d : ByteArray}
    (hs : t.resolve src = .ok ⟨src, true, false⟩) (hd : t.resolve dst = .ok ⟨dst, true, false⟩)
    (hsrc : t.lookup src = some (.file d)) (hdst : t.lookup dst ≠ some .dir) (hne : src ≠ dst) :
    t.rename src dst = .ok ⟨(t.nodes.erase src).insert dst (.file d)⟩ := by
  rcases hl : t.lookup dst with _ | _ | _
  · simp [rename, hs, hd, hsrc, hl, hne]
  · simp [rename, hs, hd, hsrc, hl, hne]
  · exact absurd hl hdst

end Operations

section Children

variable {t : FileTree} {p : List String}

theorem eq_of_children_entry {q : List String} {m n : Node} {name : String}
    (h : (if q.length = p.length + 1 ∧ p.isPrefixOf q = true then q.getLast?.map (·, m)
      else none) = some (name, n)) : q = p ++ [name] ∧ m = n := by
  by_cases hc : q.length = p.length + 1 ∧ p.isPrefixOf q = true
  · rw [if_pos hc] at h
    obtain ⟨x, hx, hxn⟩ := Option.map_eq_some_iff.mp h
    obtain ⟨rfl, rfl⟩ := Prod.mk.inj hxn
    obtain ⟨r, rfl⟩ := List.isPrefixOf_iff_prefix.mp hc.2
    obtain ⟨y, rfl⟩ : ∃ y, r = [y] := List.length_eq_one_iff.mp (by simpa using hc.1)
    simp only [List.getLast?_append, List.getLast?_singleton, Option.some_or] at hx
    exact ⟨by rw [Option.some.inj hx], rfl⟩
  · rw [if_neg hc] at h
    cases h

theorem mem_children {name : String} {n : Node} :
    (name, n) ∈ t.children p ↔ t.lookup (p ++ [name]) = some n := by
  rw [lookup_of_ne_nil (by simp), ← Std.ExtTreeMap.mem_toList_iff_getElem?_eq_some]
  simp only [children, List.mem_filterMap]
  constructor
  · rintro ⟨⟨q, m⟩, hmem, hq⟩
    obtain ⟨rfl, rfl⟩ := eq_of_children_entry hq
    exact hmem
  · intro h
    refine ⟨(p ++ [name], n), h, ?_⟩
    simp

theorem children_pairwise_ne : (t.children p).Pairwise (fun a b => a.1 ≠ b.1) := by
  refine List.Pairwise.filterMap _ ?_ Std.ExtTreeMap.distinct_keys_toList
  rintro ⟨q, m⟩ ⟨q', m'⟩ hqq' ⟨x, n⟩ hx ⟨x', n'⟩ hx' rfl
  obtain ⟨rfl, -⟩ := eq_of_children_entry hx
  obtain ⟨rfl, -⟩ := eq_of_children_entry hx'
  exact hqq' (Std.LawfulEqCmp.compare_eq_iff_eq.mpr rfl)

end Children

section Calls

variable {t : FileTree} {p : List String}

theorem hasNul_eq_false {c : FsCall} (h : ∀ p ∈ c.paths, ∀ name ∈ p, PlainName name) :
    c.hasNul = false := by
  simp only [FsCall.hasNul, List.any_eq_false]
  intro p hp hnul
  obtain ⟨name, hn, hc⟩ := List.any_eq_true.mp hnul
  exact (h p hp name hn).2.2.2.2 (by simpa using hc)

theorem answer_of_plain {c : FsCall} (h : ∀ p ∈ c.paths, ∀ name ∈ p, PlainName name) :
    answer c t = ((answerPlain c t).1.mapError .os, (answerPlain c t).2) := by
  simp [answer, hasNul_eq_false h]

theorem run_call_bind {β : Type} (c : FsCall) (f : Except IoError c.Result → Program FileSystem β) :
    Program.run FileTree.answer (Files.call c >>= f) t =
      Program.run FileTree.answer (f (answer c t).1) (answer c t).2 := rfl

theorem run_bind_ok {α β : Type} {x : Program FileSystem α} {f : α → Program FileSystem β}
    {a : α} {t' : FileTree} (h : Program.run FileTree.answer x t = (.ok a, t')) :
    Program.run FileTree.answer (x >>= f) t = Program.run FileTree.answer (f a) t' := by
  refine (Program.run_bind FileTree.answer x f t).trans ?_
  rw [h]

section Answers

variable (hp : PlainPath p)
include hp

theorem answer_plain (c : FsCall) (hc : c.paths = [p]) :
    answer c t = ((answerPlain c t).1.mapError .os, (answerPlain c t).2) :=
  answer_of_plain (by simpa [hc] using hp.2.1)

theorem answer_mkdir (hd : t.DirsAbove p) (hn : ∀ d, t.lookup p ≠ some (.file d)) :
    (answer (.mkdir p) t = (.ok (), ⟨t.nodes.insert p .dir⟩) ∧ t.lookup p = none) ∨
      (answer (.mkdir p) t = (.error (.os .fileExists), t) ∧ t.lookup p = some .dir) := by
  have hr := resolve_of_dirsAbove hp hd
  rw [answer_plain hp _ rfl]
  rcases hl : t.lookup p with _ | _ | _
  · exact .inl ⟨by simp [answerPlain, change, mkdir_of_resolve hr hl, Except.mapError], rfl⟩
  · exact absurd hl (hn _)
  · exact .inr ⟨by simp [answerPlain, change, mkdir_of_resolve_some hr hl, Except.mapError], rfl⟩

theorem answer_mkdir_noEntry (hno : t.resolve p = .error .noEntry) :
    answer (.mkdir p) t = (.error (.os .noEntry), t) := by
  rw [answer_plain hp _ rfl]
  simp [answerPlain, change, mkdir, hno, Except.mapError]

theorem answer_status {n : Node} (hd : t.DirsAbove p) (hn : t.lookup p = some n) :
    answer (.status p) t = (.ok n.kind, t) := by
  rw [answer_plain hp _ rfl]
  simp [answerPlain, status_of_resolve (resolve_of_dirsAbove hp hd) hn, Except.map,
    Except.mapError]

theorem answer_status_missing (h : t.Missing p) :
    answer (.status p) t = (.error (.os .noEntry), t) := by
  rw [answer_plain hp _ rfl]
  simp [answerPlain, status_of_missing h, Except.map, Except.mapError]

theorem answer_readFile {d : ByteArray} (hd : t.DirsAbove p) (hn : t.lookup p = some (.file d)) :
    answer (.readFile p) t = (.ok d, t) := by
  rw [answer_plain hp _ rfl]
  simp [answerPlain, readFile_of_resolve (resolve_of_dirsAbove hp hd) hn, Except.mapError]

theorem answer_readFile_missing (h : t.Missing p) :
    answer (.readFile p) t = (.error (.os .noEntry), t) := by
  rw [answer_plain hp _ rfl]
  simp [answerPlain, readFile_of_missing h, Except.mapError]

theorem answer_readDir (hd : t.DirsAbove p) (hn : t.lookup p = some .dir) :
    answer (.readDir p) t = (.ok ((t.children p).map fun e => (e.1, e.2.kind)), t) := by
  rw [answer_plain hp _ rfl]
  simp [answerPlain, readDir_of_resolve (resolve_of_dirsAbove hp hd) hn, Except.map,
    Except.mapError]

theorem answer_readDir_missing (h : t.Missing p) :
    answer (.readDir p) t = (.error (.os .noEntry), t) := by
  rw [answer_plain hp _ rfl]
  simp [answerPlain, readDir_of_missing h, Except.map, Except.mapError]

theorem answer_writeFile (hd : t.DirsAbove p) (hn : t.lookup p ≠ some .dir) (d : ByteArray) :
    answer (.writeFile p d) t = (.ok (), ⟨t.nodes.insert p (.file d)⟩) := by
  rw [answer_plain hp _ rfl]
  simp [answerPlain, change, writeFile_of_resolve (resolve_of_dirsAbove hp hd) hn,
    Except.mapError]

theorem answer_removeFile {d : ByteArray} (hd : t.DirsAbove p) (hn : t.lookup p = some (.file d)) :
    answer (.removeFile p) t = (.ok (), ⟨t.nodes.erase p⟩) := by
  rw [answer_plain hp _ rfl]
  simp [answerPlain, change, removeFile_of_resolve (resolve_of_dirsAbove hp hd) hn,
    Except.mapError]

theorem answer_removeFile_missing (h : t.Missing p) :
    answer (.removeFile p) t = (.error (.os .noEntry), t) := by
  rw [answer_plain hp _ rfl]
  simp [answerPlain, change, removeFile_of_missing h, Except.mapError]

theorem answer_removeDir (hd : t.DirsAbove p) (hn : t.lookup p = some .dir) :
    answer (.removeDir p) t = if (t.children p).isEmpty then (.ok (), ⟨t.nodes.erase p⟩)
      else (.error (.os .directoryNotEmpty), t) := by
  rw [answer_plain hp _ rfl]
  rw [answerPlain, removeDir_of_resolve (resolve_of_dirsAbove hp hd) hp.1 hn]
  split <;> rfl

theorem run_isDir (hd : t.DirsAbove p) (hn : t.lookup p = some .dir) :
    Program.run FileTree.answer (Files.isDir p) t = (.ok true, t) := by
  unfold Files.isDir
  rw [run_call_bind, answer_status hp hd hn]
  rfl

end Answers

theorem answer_rename {src dst : List String} {d : ByteArray} (hs : PlainPath src)
    (hsd : t.DirsAbove src) (hdst : PlainPath dst) (hdd : t.DirsAbove dst)
    (hsrc : t.lookup src = some (.file d)) (hn : t.lookup dst ≠ some .dir) (hne : src ≠ dst) :
    answer (.rename src dst) t = (.ok (), ⟨(t.nodes.erase src).insert dst (.file d)⟩) := by
  rw [answer_of_plain (by simpa [FsCall.paths] using ⟨hs.2.1, hdst.2.1⟩)]
  simp [answerPlain, change, rename_of_resolve (resolve_of_dirsAbove hs hsd)
    (resolve_of_dirsAbove hdst hdd) hsrc hn hne, Except.mapError]

theorem run_createDirAll (hp : p = [] ∨ PlainPath p)
    (hfile : ∀ q d, q <+: p → t.lookup q ≠ some (.file d)) :
    ∃ t', Program.run FileTree.answer (Files.createDirAll p) t = (.ok (.ok ()), t') ∧
      ∀ q, t'.lookup q = if q <+: p then some .dir else t.lookup q := by
  induction p using Files.createDirAll.induct generalizing t with
  | case1 =>
    refine ⟨t, by rw [Files.createDirAll]; rfl, fun q => ?_⟩
    split
    case isTrue hq => rw [List.prefix_nil.mp hq, lookup_nil]
    case isFalse => rfl
  | case2 =>
    exfalso
    rcases hp with h | h
    · cases h
    · exact (h.2.1 "" (by simp)).1 rfl
  | case3 p hnil hempty ih =>
    have hplain : PlainPath p := hp.resolve_left hnil
    have hlast : ∀ d, t.lookup p ≠ some (.file d) := fun d => hfile p d (List.prefix_refl p)
    rw [Files.createDirAll, dif_neg hnil, if_neg hempty, run_call_bind]
    rcases dirsAbove_or_noEntry hplain (fun q d hq _ => hfile q d hq) with hd | hno
    · rcases answer_mkdir hplain hd hlast with ⟨hans, -⟩ | ⟨hans, hdir⟩
      · rw [hans]
        exact ⟨_, rfl, lookup_insert_dir hplain.1 hd⟩
      · rw [hans]
        dsimp only
        rw [run_bind_ok (run_isDir hplain hd hdir)]
        exact ⟨t, rfl, lookup_of_dir hd hdir⟩
    · -- the parent is made first, and `p` tried once more
      obtain ⟨t₁, hrun₁, hlook₁⟩ := ih (dropLast_nil_or_plainPath hplain) fun q d hq =>
        hfile q d (hq.trans <| List.dropLast_prefix p)
      have hd₁ : t₁.DirsAbove p := fun q hq hqp => by
        rw [hlook₁, if_pos ((prefix_dropLast_iff hplain.1).mpr ⟨hq, hqp⟩)]
      have hsame : t₁.lookup p = t.lookup p := by
        rw [hlook₁, if_neg fun h => ((prefix_dropLast_iff hplain.1).mp h).2 rfl]
      have hupper : ∀ q, (if q <+: p then some Node.dir else t₁.lookup q) =
          if q <+: p then some .dir else t.lookup q := by
        intro q
        by_cases hq : q <+: p
        · rw [if_pos hq, if_pos hq]
        · rw [if_neg hq, if_neg hq, hlook₁, if_neg fun h => hq (h.trans <| List.dropLast_prefix p)]
      rw [answer_mkdir_noEntry hplain hno]
      dsimp only
      rw [run_bind_ok hrun₁]
      dsimp only
      rw [run_call_bind]
      rcases answer_mkdir hplain hd₁ (hsame ▸ hlast) with ⟨hans, -⟩ | ⟨hans, hdir⟩
      · rw [hans]
        exact ⟨_, rfl, fun q => (lookup_insert_dir hplain.1 hd₁ q).trans (hupper q)⟩
      · rw [hans]
        dsimp only
        rw [run_bind_ok (run_isDir hplain hd₁ hdir)]
        exact ⟨t₁, rfl, fun q => (lookup_of_dir hd₁ hdir q).trans (hupper q)⟩

end Calls

end FileTree

end Quorum
