import Quorum.Coordinate.Inspect

/-!
# Signing

A co-signer fetches the payload and the metadata of a version, signs them with a local key, and
uploads the signature under its signer name. The signer name must be a valid component and not
the name of the payload or the metadata; signing again under the same name replaces the earlier
signature.
-/

namespace Quorum

/-- What to sign. -/
structure SignRequest where
  version : Version
  keyName : String
  signer : String
  multisigAddress : String

/-- The payload and metadata of a version, fetched for review before signing. -/
structure Bundle where
  version : Version
  payload : ByteArray
  metadata : Metadata

namespace Op

def fetch (v : Version) (a : Artifact) : Op ByteArray := do
  match ← store (.get (v.path a)) with
  | some d => pure d
  | none => throw (.versionNotFound (v.path a))

def readMetadata (v : Version) (bytes : ByteArray) : Op Metadata :=
  match Metadata.decode bytes with
  | .ok m => pure m
  | .error e => throw (.corruptMetadata (v.path .signdata) e.message)

def prepareSign (v : Version) : Op Bundle := do
  let payload ← fetch v .unsigned
  let bytes ← fetch v .signdata
  return ⟨v, payload, ← readMetadata v bytes⟩

def completeSign (b : Bundle) (r : SignRequest) : Op ObjectPath := do
  let file ← match Artifact.signature? r.signer with
    | .ok f => pure f
    | .error e => classification e
  let signature ← chain (.sign b.payload r.multisigAddress r.keyName b.metadata)
  let path : ObjectPath := ⟨b.version, file⟩
  store (.put path.render signature)
  return path

def sign (r : SignRequest) : Op ObjectPath := do
  completeSign (← prepareSign r.version) r

end Op

end Quorum
