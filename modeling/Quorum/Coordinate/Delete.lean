import Quorum.Coordinate.Inspect
import Quorum.Coordinate.Cleanup

/-!
# Deleting a version

Removes every file of one version, with no check of order or threshold: the way to drop a
transaction that will not be broadcast, or to finish a cleanup that stopped part way.
-/

namespace Quorum

/-- What a deletion did. -/
inductive Deletion where
  | nothing
  | removed (paths : List String)
  deriving DecidableEq, Repr

namespace Op

def delete (s : Settings) (v : Version) : Op Deletion := do
  let files ← listFiles v
  if files.isEmpty then return .nothing
  let paths := files.map v.path
  removeAll s v.pre paths
  return .removed paths

end Op

end Quorum
