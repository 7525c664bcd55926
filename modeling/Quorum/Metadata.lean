import Quorum.Json.Decode
import Quorum.Json.Writer

/-!
# Signing metadata

What every co-signer needs to sign a version offline: the multisig account's number, the
sequence the transaction is signed for, the chain id, and a free note for the signers. It is
fixed when the version is published and stored as the JSON object
`{"account":5,"sequence":12,"chain-id":"x","description":""}` in the version's `signdata` file.

Reading accepts the members in any order, skips unknown ones, lets the description default to
empty, and also accepts the four fields as an array.
-/

namespace Quorum

/-- The signing metadata of a version. -/
structure Metadata where
  account : UInt64
  sequence : UInt64
  chainId : String
  description : String := ""
  deriving DecidableEq, Repr

namespace Metadata

/-- The stored JSON text of the metadata, members in the order account, sequence, chain id,
description. -/
def render (m : Metadata) : String :=
  Json.objectText [("account", Nat.repr m.account.toNat), ("sequence", Nat.repr m.sequence.toNat),
    ("chain-id", Json.quote m.chainId), ("description", Json.quote m.description)]

def encode (m : Metadata) : ByteArray :=
  m.render.toUTF8

/-- The fields read so far. -/
structure Partial where
  account : Option UInt64 := none
  sequence : Option UInt64 := none
  chainId : Option String := none
  description : Option String := none

def shape : Json.Record Partial where
  name := "SignMetadata"
  empty := {}
  fields := [
    { name := "account", optionalInObject := false, optionalInArray := false,
      present := fun p => p.account.isSome,
      read := fun p fuel => do return { p with account := some (← Json.readU64 fuel).toUInt64 } },
    { name := "sequence", optionalInObject := false, optionalInArray := false,
      present := fun p => p.sequence.isSome,
      read := fun p fuel => do return { p with sequence := some (← Json.readU64 fuel).toUInt64 } },
    { name := "chain-id", optionalInObject := false, optionalInArray := false,
      present := fun p => p.chainId.isSome,
      read := fun p fuel => do return { p with chainId := some (← Json.readText fuel) } },
    { name := "description", optionalInObject := true, optionalInArray := true,
      present := fun p => p.description.isSome,
      read := fun p fuel => do return { p with description := some (← Json.readText fuel) } }]

def decode (bytes : ByteArray) : Except Json.Error Metadata :=
  Json.readDocument bytes fun fuel => do
    let p ← Json.readRecord shape fuel
    return { account := p.account.getD 0, sequence := p.sequence.getD 0,
             chainId := p.chainId.getD "", description := p.description.getD "" }

end Metadata

end Quorum
