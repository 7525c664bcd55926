import Quorum.Coordinate.Request
import Quorum.Path.Object

/-!
# Inspecting the store

The state of every queue is read afresh from listings of the store; nothing is remembered between
operations. An empty listing is the normal state of a queue with nothing published; only a failed
listing, or a key under a queue that does not fit the layout, is an error.

The versions of a queue are the distinct indices of the objects under it, markers and loose
objects left out; the files of a version are the distinct artifacts under its prefix. The full
listing groups every object of the store by version and keeps the keys that fit no version aside.
-/

namespace Quorum

/-- Inserts `x` into a list ascending by `cmp`, unless an equal element is there. -/
def insertAscending {α : Type} (cmp : α → α → Ordering) (x : α) : List α → List α
  | [] => [x]
  | y :: ys =>
    match cmp x y with
    | .lt => x :: y :: ys
    | .eq => y :: ys
    | .gt => y :: insertAscending cmp x ys

section Ascending

variable {κ : Type} {cmp : κ → κ → Ordering}

theorem mem_insertAscending [Std.LawfulEqCmp cmp] {x y : κ} {l : List κ} :
    y ∈ insertAscending cmp x l ↔ y = x ∨ y ∈ l := by
  induction l with
  | nil => simp [insertAscending]
  | cons z l ih =>
    unfold insertAscending
    split <;> rename_i h
    · simp
    · obtain rfl := Std.LawfulEqCmp.eq_of_compare h
      simp
    · simp only [List.mem_cons, ih]
      exact or_left_comm

theorem insertAscending_ascending [Std.TransCmp cmp] [Std.LawfulEqCmp cmp] {x : κ} {l : List κ}
    (hl : l.Pairwise (cmp · · = .lt)) :
    (insertAscending cmp x l).Pairwise (cmp · · = .lt) := by
  induction l with
  | nil => simp [insertAscending]
  | cons z l ih =>
    obtain ⟨hz, hl⟩ := List.pairwise_cons.mp hl
    unfold insertAscending
    split <;> rename_i h
    · refine List.Pairwise.cons (fun y hy => ?_) (List.Pairwise.cons hz hl)
      rcases List.mem_cons.mp hy with rfl | hy
      · exact h
      · exact Std.TransCmp.lt_trans h (hz y hy)
    · exact List.Pairwise.cons hz hl
    · refine List.Pairwise.cons (fun y hy => ?_) (ih hl)
      rcases mem_insertAscending.mp hy with rfl | hy
      · exact Std.OrientedCmp.lt_of_gt h
      · exact hz y hy

end Ascending

/-- What one version holds. -/
structure Contents where
  hasPayload : Bool := false
  hasMetadata : Bool := false
  signers : List String := []
  deriving DecidableEq, Repr

namespace Contents

/-- The contents with one more artifact; signers are kept in the order they come. -/
def add (c : Contents) : Artifact → Contents
  | .unsigned => { c with hasPayload := true }
  | .signdata => { c with hasMetadata := true }
  | .signature n => { c with signers := c.signers ++ [n] }

def sortSigners (c : Contents) : Contents :=
  { c with signers := c.signers.mergeSort (fun a b => decide (a ≤ b)) }

def ofFiles (files : List Artifact) : Contents :=
  (files.foldl add {}).sortSigners

def signatureCount (c : Contents) : Nat := c.signers.length

def isSignable (c : Contents) : Bool := c.hasPayload && c.hasMetadata

end Contents

instance : Std.TransCmp Version.compare :=
  inferInstanceAs (Std.TransCmp (compareLex (compareLex (compareOn fun v : Version => v.queue.chain)
    (compareOn fun v : Version => v.queue.key)) (compareOn Version.index)))

instance : Std.LawfulEqCmp Version.compare where
  compare_self := by simp [Version.compare, Queue.compare]
  eq_of_compare {v w} h := by
    simp only [Version.compare, Queue.compare, Ordering.then_eq_eq,
      Std.LawfulEqCmp.compare_eq_iff_eq] at h
    obtain ⟨⟨hc, hk⟩, hi⟩ := h
    obtain ⟨⟨c, k, _, _⟩, i⟩ := v
    obtain ⟨⟨c', k', _, _⟩, i'⟩ := w
    dsimp only at hc hk hi
    subst hc hk hi
    rfl

/-- Entries whose versions strictly ascend, as the keys of an ordered map do. -/
def Listing.Ascending (vs : List (Version × Contents)) : Prop :=
  (vs.map Prod.fst).Pairwise (Version.compare · · = .lt)

/-- Every version of the store with its contents, and the keys that fit no version. -/
structure Listing where
  versions : List (Version × Contents)
  /-- The keys that do not fit `<chain>/<key>/<index>/<file>`, in listing order. -/
  unrecognized : List String
  ascending : Listing.Ascending versions

namespace Listing

def empty : Listing := ⟨[], [], .nil⟩

def addArtifact (v : Version) (a : Artifact) : List (Version × Contents) → List (Version × Contents)
  | [] => [(v, Contents.add {} a)]
  | (w, c) :: rest =>
    match v.compare w with
    | .lt => (v, Contents.add {} a) :: (w, c) :: rest
    | .eq => (w, c.add a) :: rest
    | .gt => (w, c) :: addArtifact v a rest

theorem map_fst_addArtifact (v : Version) (a : Artifact) (vs : List (Version × Contents)) :
    (addArtifact v a vs).map Prod.fst = insertAscending Version.compare v (vs.map Prod.fst) := by
  induction vs with
  | nil => rfl
  | cons e rest ih =>
    obtain ⟨w, c⟩ := e
    simp only [addArtifact, insertAscending, List.map_cons]
    cases v.compare w <;> simp [ih]

theorem Ascending.addArtifact {vs : List (Version × Contents)} (h : Ascending vs) (v : Version)
    (a : Artifact) : Ascending (addArtifact v a vs) := by
  unfold Ascending
  rw [map_fst_addArtifact]
  exact insertAscending_ascending h

theorem Ascending.mapContents {vs : List (Version × Contents)} (h : Ascending vs)
    (g : Contents → Contents) : Ascending (vs.map fun (v, c) => (v, g c)) := by
  unfold Ascending
  rw [List.map_map]
  exact h

def addKey (l : Listing) (key : String) : Listing :=
  match ObjectPath.parse key with
  | .ok (some p) =>
    { l with versions := addArtifact p.version p.artifact l.versions,
             ascending := l.ascending.addArtifact p.version p.artifact }
  | .ok none => l
  | .error _ => { l with unrecognized := l.unrecognized ++ [key] }

def ofKeys (keys : List String) : Listing :=
  let l := keys.foldl addKey empty
  { l with versions := l.versions.map fun (v, c) => (v, c.sortSigners),
           ascending := l.ascending.mapContents Contents.sortSigners }

end Listing

namespace Op

def classification {α : Type} (e : PathError) : Op α :=
  throw (.classification e.message)

def listVersions (q : Queue) : Op (List UInt64) := do
  let objects ← store (.listPrefix q.pre)
  objects.foldlM (fun acc o =>
    match q.placement o with
    | .error e => classification e
    | .ok (.version i) => pure (insertAscending Ord.compare i acc)
    | .ok _ => pure acc) []

def listFiles (v : Version) : Op (List Artifact) := do
  let objects ← store (.listPrefix v.pre)
  objects.foldlM (fun acc o =>
    match v.fileOf o with
    | .error e => classification e
    | .ok (some a) => pure (insertAscending Artifact.compare a acc)
    | .ok none => pure acc) []

def versionContents (v : Version) : Op Contents := do
  return Contents.ofFiles (← listFiles v)

/-- Every version of the store with its contents, and the keys that fit no version. -/
def listEverything : Op Listing := do
  return Listing.ofKeys (← store .listAll)

end Op

end Quorum
