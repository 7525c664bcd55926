/-!
# Similarity of short texts

The Jaro similarity of two texts, by characters: two characters match when they are equal, not
yet matched, and no farther apart than half the longer length less one; each character of the
first text matches the first such character of the second. With `m` matches, of which `t` pairs
stand in a different order, the similarity is `(m / |a| + m / |b| + (m - t) / m) / 3`; it is 1
for two empty texts and 0 when nothing matches.

Similarities are computed in double precision, each quotient rounded and the sum taken from the
left, and a text is close to another when its similarity is above seven tenths. Rounding matters
at that bound: one match of a single letter with a ten letter text gives `(1 + 0.1 + 1) / 3`,
which is seven tenths exactly but rounds to just above it, so the texts are close.
-/

namespace Quorum.Text

def matchMarks (a b : List Char) : List Bool × List Bool :=
  let window := max a.length b.length / 2 - 1
  a.zipIdx.foldl (fun (ma, mb) (c, i) =>
    let lo := i - window
    let hi := min b.length (i + window + 1)
    match (List.range' lo (hi - lo)).find? (fun j => b[j]? == some c && mb[j]? == some false) with
    | some j => (ma ++ [true], mb.set j true)
    | none => (ma ++ [false], mb)) ([], List.replicate b.length false)

def marked (cs : List Char) (marks : List Bool) : List Char :=
  ((cs.zip marks).filter (·.2)).map (·.1)

def matchCounts (a b : List Char) : Nat × Nat :=
  let (ma, mb) := matchMarks a b
  let m := (ma.filter id).length
  (m, (((marked a ma).zip (marked b mb)).filter fun (x, y) => x != y).length / 2)

def jaro (a b : String) : Float :=
  let ca := a.toList
  let cb := b.toList
  if ca.isEmpty && cb.isEmpty then 1
  else
    let (m, t) := matchCounts ca cb
    if m = 0 then 0
    else
      let mf := Float.ofNat m
      (mf / Float.ofNat ca.length + mf / Float.ofNat cb.length + Float.ofNat (m - t) / mf) / 3

def isClose (s : Float) : Bool :=
  Float.ofNat 7 / Float.ofNat 10 < s

/-- Inserts a scored candidate after every candidate scored at most as high. -/
def insertByScore (x : Float × String) : List (Float × String) → List (Float × String)
  | [] => [x]
  | y :: ys => if x.1 < y.1 then x :: y :: ys else y :: insertByScore x ys

/-- The candidates close to a text, least close first; equally close ones keep their order. -/
def closeTo (v : String) (candidates : List String) : List String :=
  ((candidates.map fun c => (jaro v c, c)).filter (isClose ·.1)).foldl
    (fun acc x => insertByScore x acc) [] |>.map (·.2)

end Quorum.Text
