import Quorum.Coordinate.Inspect

/-!
# Listings as text

A version is listed on one line: its path, its state, and its signatures with the names of the
signers, ascending:

    cosmoshub/val/0  ready  signatures: 2 (alice, bob)

The state says whether the version can be signed (`ready`) or which of its payload and metadata
it lacks. A listing of the whole store puts a line of dashes above, below, and between the
versions of two queues, and then names the keys that fit no version.
-/

namespace Quorum

def Listing.separator : String := "---------------------------------"

def Contents.state (c : Contents) : String :=
  match c.hasPayload, c.hasMetadata with
  | true, true => "ready"
  | true, false => "missing signdata"
  | false, true => "missing unsigned"
  | false, false => "signatures only"

def versionLine (v : Version) (c : Contents) : String :=
  v.display ++ "  " ++ c.state ++ "  signatures: " ++ toString c.signatureCount ++
    (if c.signers.isEmpty then "" else " (" ++ ", ".intercalate c.signers ++ ")")

/-- The lines of versions, a separator before each that starts another queue than `last`. -/
def versionLines : Option Queue → List (Version × Contents) → List String
  | _, [] => []
  | last, (v, c) :: rest =>
    let divider := match last with
      | some q => if q = v.queue then [] else [Listing.separator]
      | none => []
    divider ++ versionLine v c :: versionLines (some v.queue) rest

def Listing.render (l : Listing) : String :=
  let unrecognized := if l.unrecognized.isEmpty then []
    else "unrecognized:" :: l.unrecognized.map ("  " ++ ·)
  let lines := [separator] ++ versionLines none l.versions ++ [separator] ++ unrecognized
  String.join (lines.map (· ++ "\n"))

end Quorum
