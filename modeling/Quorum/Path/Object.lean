import Quorum.Path.Basic

/-!
# Object keys

Reading an object key of the store as the version and artifact it belongs to, and placing an
object key relative to a queue or a version.

A key that ends in `/` is a directory marker and names no artifact. Any other key must have
exactly four segments, each a component, the third a canonical index.
-/

namespace Quorum

def segments (s : String) : List String :=
  (s.toList.splitOn '/').map String.ofList

/-- A fully qualified artifact of a version. -/
structure ObjectPath where
  version : Version
  artifact : Artifact
  deriving DecidableEq

namespace ObjectPath

def render (p : ObjectPath) : String :=
  p.version.path p.artifact

def parse (key : String) : Except PathError (Option ObjectPath) :=
  if endsInSlash key then .ok none
  else
    match segments key with
    | [c, k, i, f] =>
      if [c, k, i, f].all validComponent then
        match Queue.new? c k with
        | .error e => .error e
        | .ok q =>
          match parseIndex key i with
          | .error e => .error e
          | .ok index => .ok (some ⟨q.version index, Artifact.ofName f⟩)
      else .error (.tooFewSegments key)
    | segs => if segs.length < 4 then .error (.tooFewSegments key) else .error (.nested key)

end ObjectPath

/-- Where an object key sits below a queue's prefix. -/
inductive Placement where
  | marker
  | loose
  | version (index : UInt64)
  deriving DecidableEq, Repr

def Queue.placement (q : Queue) (key : String) : Except PathError Placement :=
  match stripPrefix? key q.pre with
  | none => .error (.outsidePrefix key q.pre)
  | some rest =>
    if rest.isEmpty || endsInSlash rest then .ok .marker
    else
      match rest.toList.splitOn '/' with
      | [_] => .ok .loose
      | seg :: _ => (parseIndex key (String.ofList seg)).map Placement.version
      | [] => .ok .loose

/-- The artifact that an object key of this version names, or `none` for a directory marker. -/
def Version.fileOf (v : Version) (key : String) : Except PathError (Option Artifact) :=
  if v.pre.toList.isPrefixOf key.toList then
    (ObjectPath.parse key).map (Option.map ObjectPath.artifact)
  else .error (.outsidePrefix key v.pre)

end Quorum
