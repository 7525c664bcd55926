import Quorum.Proofs.StoreConfinement

/-!
# A download stays in its directory

Downloading a directory of the store lists the keys under a prefix and writes each object at the
local directory joined with the rest of its key. A rest that is empty, a marker, or that has an
empty, `.` or `..` segment is skipped; every other rest is a path of normal names, so the file
lands at the local directory followed by exactly those names (`Cli.downloadDir_confined`). The
statement holds on every host that reports its working directory, whatever it answers to the
reads of the store and the writes of the download.
-/

namespace Quorum

open Program

/-- A host whose working directory is `cwd`; it may answer every other call as it likes. -/
def WorkDirIs (cwd : List String) : (r : Host.Request) → Host.Reply r → Prop
  | .workDir, d => d = cwd
  | _, _ => True

/-- The calls a download into the local directory `dir` may make from the working directory
`cwd`: it asks for the working directory, prints, reads, makes the directories on the way to the
files it writes, and writes files at the directory followed by normal names. An empty last name
stands for the slash at the end of `dir`, the same directory. -/
def DownloadCall (cwd : List String) (dir : String) : Host.Request → Prop
  | .fs c => c.IsRead ∨
      (∃ q, c = .mkdir q ∧ (q <+: localDir cwd dir ++ [""] ∨
        ∃ rel, (∀ n ∈ rel, NormalName n) ∧ q <+: localDir cwd dir ++ rel)) ∨
      ∃ rel data, rel ≠ [] ∧ (∀ n ∈ rel, NormalName n) ∧
        c = .writeFile (localDir cwd dir ++ rel) data
  | .workDir | .write _ _ => True
  | _ => False

namespace Files

variable {R : (r : FileSystem.Request) → FileSystem.Reply r → Prop}

theorem createDirAll_reads_or_makes (p : List String) :
    (createDirAll p).Guarantees R
      (fun c : FsCall => c.IsRead ∨ ∃ q, c = .mkdir q ∧ q <+: p ∧ p ≠ [""])
      (fun _ => True) := by
  by_cases hp : p = [""]
  · subst hp
    rw [createDirAll]
    exact Guarantees.ret
  · refine (createDirAll_calls p).mono (fun c hc => ?_) (fun _ _ => trivial)
    obtain ⟨q, hq, hc⟩ := hc
    rcases hc with rfl | rfl
    · exact .inr ⟨q, rfl, hq, hp⟩
    · exact .inl trivial

end Files

namespace Cli

variable {R : (r : Host.Request) → Host.Reply r → Prop} {P : Host.Request → Prop}

theorem call_guarantees {c : HostCall} (h : P c) :
    (Host.call c).Guarantees R P (fun _ => True) :=
  .call h fun _ _ => .pure trivial

theorem files_guarantees {α : Type} {PF : FsCall → Prop} {Q : α → Prop}
    {p : Program FileSystem α} (hp : p.Guarantees (fun _ _ => True) PF Q)
    (hP : ∀ c, PF c → P (HostCall.fs c)) : (Host.files p).Guarantees R P Q :=
  hp.interpret fun c hc => call_guarantees (hP c hc)

theorem lift_guarantees {α : Type} {Q : α → Prop} {p : Program Host α}
    (hp : p.Guarantees R P Q) :
    (Work.lift p).run.Guarantees R P (fun e => ∀ a, e = .ok a → Q a) :=
  Guarantees.except_liftM hp

theorem absolute_guarantees (cwd : List String) (path : String) (h : P HostCall.workDir) :
    (Host.absolute path).Guarantees (WorkDirIs cwd) P
      (fun f => f = Host.resolveIn cwd path) := by
  unfold Host.absolute
  exact .call h fun d hd => .pure (by rw [show d = cwd from hd])

theorem onDisk_guarantees {α : Type} (r : Except IoError α) :
    (Work.onDisk r).run.Guarantees R P (fun _ => True) := by
  cases r <;> exact .pure trivial

theorem print_guarantees (line : String) (h : P (HostCall.write false (line ++ "\n"))) :
    (Work.print line).run.Guarantees R P (fun _ => True) :=
  (lift_guarantees (call_guarantees h)).mono (fun _ h => h) (fun _ _ => trivial)

theorem writeFile_guarantees (cwd : List String) (path : String) (data : ByteArray)
    (hw : P HostCall.workDir)
    (hf : P (HostCall.fs (.writeFile (Host.resolveIn cwd path) data))) :
    (Work.writeFile path data).run.Guarantees (WorkDirIs cwd) P (fun _ => True) := by
  unfold Work.writeFile
  refine Guarantees.except_bind (lift_guarantees (absolute_guarantees cwd path hw))
    (fun file hfile => ?_) (fun _ => trivial)
  rw [hfile file rfl]
  have hcall : (Files.call (.writeFile (Host.resolveIn cwd path) data)).Guarantees
      (fun _ _ => True) (fun c : FsCall => c = .writeFile (Host.resolveIn cwd path) data)
      (fun _ => True) :=
    .call rfl fun _ _ => .pure trivial
  exact Guarantees.except_bind (lift_guarantees (files_guarantees hcall fun _ hc => hc ▸ hf))
    (fun r _ => onDisk_guarantees r) (fun _ => trivial)

theorem createDirAll_guarantees (cwd : List String) (path : String) (hw : P HostCall.workDir)
    (hr : ∀ c : FsCall, c.IsRead → P (HostCall.fs c))
    (hm : ∀ q, q <+: Host.resolveIn cwd path → Host.resolveIn cwd path ≠ [""] →
      P (HostCall.fs (.mkdir q))) :
    (Work.createDirAll path).run.Guarantees (WorkDirIs cwd) P (fun _ => True) := by
  unfold Work.createDirAll
  refine Guarantees.except_bind (lift_guarantees (absolute_guarantees cwd path hw))
    (fun dir hdir => ?_) (fun _ => trivial)
  rw [hdir dir rfl]
  refine Guarantees.except_bind (lift_guarantees (files_guarantees
      (Files.createDirAll_reads_or_makes _) fun c hc => ?_))
    (fun r _ => onDisk_guarantees r) (fun _ => trivial)
  rcases hc with hc | ⟨q, rfl, hq, hne⟩
  · exact hr c hc
  · exact hm q hq hne

theorem storeOnly_guarantees (s : Session) (c : StoreCall) {PF : FsCall → Prop}
    {Q : Except StoreError c.Reply → Prop}
    (hs : (Directory.serve s.root c).run.Guarantees (fun _ _ => True) PF Q)
    (hP : ∀ c, PF c → P (HostCall.fs c)) :
    (s.storeOnly (Op.store c)).run.Guarantees R P (fun _ => True) := by
  have hop : (Op.store c).run.Guarantees (fun _ _ => True) (fun r => r = Request.store c)
      (fun _ => True) :=
    .call rfl fun _ _ => .pure trivial
  exact hop.interpret fun r hr => by
    subst hr
    exact (files_guarantees hs hP).mono (fun _ h => h) (fun _ _ => trivial)

theorem downloadDir_confined (s : Session) (remote dir : String) (cwd : List String) :
    (s.downloadDir remote dir).run.Guarantees (WorkDirIs cwd) (DownloadCall cwd dir)
      (fun _ => True) := by
  have hw : DownloadCall cwd dir HostCall.workDir := trivial
  have hr : ∀ c : FsCall, c.IsRead → DownloadCall cwd dir (HostCall.fs c) :=
    fun _ hc => .inl hc
  unfold Session.downloadDir
  refine Guarantees.except_seq (createDirAll_guarantees cwd dir hw hr fun q hq hne => ?_)
    (fun _ => ?_) (fun _ => trivial)
  · rcases resolveIn_prefix_localDir cwd dir with h | h
    · exact absurd h hne
    · exact .inr (.inl ⟨q, rfl, .inl (hq.trans h)⟩)
  refine Guarantees.except_bind
    (storeOnly_guarantees s _ (Directory.listPrefix_extends s.root remote) hr)
    (fun objects _ => ?_) (fun _ => trivial)
  refine Guarantees.except_forM fun o _ => ?_
  dsimp only
  refine Guarantees.except_ite (fun _ => Guarantees.except_pure trivial) (fun hskip => ?_)
  generalize String.ofList (o.toList.drop remote.length) = rel at hskip ⊢
  have hsafe : isSafeRelative rel = true := by
    revert hskip
    cases isSafeRelative rel <;> simp
  have hnormal := (normal_of_isSafeRelative hsafe).2
  refine Guarantees.except_bind
    (storeOnly_guarantees s (.get o) (Directory.get_reads s.root o) hr)
    (fun x _ => ?_) (fun _ => trivial)
  rcases x with _ | data
  · exact Guarantees.except_pure trivial
  have hwrite : (do Work.writeFile (joinLocal dir rel) data; Work.print (joinLocal dir rel)).run
      |>.Guarantees (WorkDirIs cwd) (DownloadCall cwd dir) (fun _ => True) := by
    refine Guarantees.except_seq (writeFile_guarantees cwd _ data hw ?_)
      (fun _ => print_guarantees _ trivial) (fun _ => trivial)
    rw [resolveIn_joinLocal cwd dir hsafe]
    exact .inr (.inr ⟨segments rel, data, Directory.segments_ne_nil rel, hnormal, rfl⟩)
  dsimp only
  rcases hp : parentOf (joinLocal dir rel) with _ | parent
  · exact hwrite
  · refine Guarantees.except_seq (createDirAll_guarantees cwd parent hw hr fun q hq hne => ?_)
      (fun _ => hwrite) (fun _ => trivial)
    rcases resolveIn_parentOf cwd dir hsafe hp with h | h | h
    · exact absurd h hne
    · exact .inr (.inl ⟨q, rfl, .inl (hq.trans h)⟩)
    · exact .inr (.inl ⟨q, rfl, .inr ⟨_, fun n hn => hnormal n (List.dropLast_subset _ hn),
        h ▸ hq⟩⟩)

end Cli

/-- Store keys cannot leave the store's root, and a download cannot leave its local directory.
A key is refused or names a non-empty path of normal names below the root; reading, checking
and deleting a key name only paths strictly inside the root; writing a key does too, but for
making and checking the directories on the way down, which start at the root and its
ancestors. A listing under a prefix only reads, and each key it lists is the prefix followed by
the rest. A download reads, prints, makes directories on its way, and writes only files at its
directory followed by normal names. -/
theorem paths_stay_confined :
    (∀ root key, Directory.resolve root key = .error (.invalidKey key) ∨
      ∃ rel, Directory.resolve root key = .ok (root ++ rel) ∧ rel ≠ [] ∧
        ∀ n ∈ rel, NormalName n) ∧
    (∀ (R : (r : FileSystem.Request) → FileSystem.Reply r → Prop) root key,
      (Directory.get root key).run.Guarantees R (FsCall.Inside root) (fun _ => True) ∧
      (Directory.contains root key).run.Guarantees R (FsCall.Inside root) (fun _ => True) ∧
      (Directory.delete root key).run.Guarantees R (FsCall.Inside root) (fun _ => True) ∧
      ∀ data, (Directory.put root key data).run.Guarantees R
        (fun c : FsCall => FsCall.Inside root c ∨
          ∃ q, q <+: root ∧ (c = .mkdir q ∨ c = .status q))
        (fun _ => True)) ∧
    (∀ (R : (r : FileSystem.Request) → FileSystem.Reply r → Prop) root pre,
      (Directory.serve root (.listPrefix pre)).run.Guarantees R FsCall.IsRead
        (fun r => ∀ keys : List String, r = .ok keys → ∀ k ∈ keys,
          pre ++ String.ofList (k.toList.drop pre.length) = k)) ∧
    (∀ (s : Cli.Session) remote dir cwd, (s.downloadDir remote dir).run.Guarantees
      (WorkDirIs cwd) (DownloadCall cwd dir) (fun _ => True)) :=
  ⟨Directory.resolve_below,
    fun _ root key => ⟨Directory.get_inside root key, Directory.contains_inside root key,
      Directory.delete_inside root key, Directory.put_inside_or_above root key⟩,
    fun _ root pre => Directory.listPrefix_extends root pre,
    Cli.downloadDir_confined⟩

end Quorum
