import Quorum.Config.Basic
import Quorum.Schema
import Quorum.Toml.Read

/-!
# Reading settings

The settings are a TOML document: `user`, `keyring_backend` (also `keyringbackend`),
`default_gas` (also `defaultgas`), the tables `store`, `aws` and `timeouts`, and the arrays of
tables `keys` and `chains`. Older spellings are accepted as aliases: `bucketregion`, `pub` and
`priv` in `aws`, `localname` in a key. A field given under both its name and an alias is given
twice.

The fields are the same whatever the settings are read from; each source brings its own
`Decoder`. Reading checks the shape of the values; the settings read are then validated.
-/

namespace Quorum

open Toml

namespace Config

variable {V E : Type}

def field {σ : Type} (name : String) (aliases : List String) (present : σ → Bool)
    (read : σ → V → Except E σ) : Field V E σ :=
  { name := name, aliases := aliases, present := present, read := read }

def requiredField {σ : Type} (name : String) (present : σ → Bool)
    (read : σ → V → Except E σ) : Field V E σ :=
  { name := name, required := true, present := present, read := read }

/-- The fields of the store table, read so far. -/
structure StorePartial where
  backend : Option StoreBackend := none
  path : Option (Option String) := none

def storeFields (d : Decoder V E) : List (Field V E StorePartial) := [
    field "backend" [] (·.backend.isSome) fun p v => do
      let name ← d.choice "StoreBackend" ["s3", "fs"] v
      return { p with backend := some (if name = "fs" then .fs else .s3) },
    field "path" [] (·.path.isSome) fun p v => do
      return { p with path := some (some (← d.text "path string" v)) }]

def readStore (d : Decoder V E) (v : V) : Except E StoreSettings := do
  let p ← d.record "StoreConfig" (storeFields d) {} v
  return { backend := p.backend.getD .s3, path := p.path.getD none }

/-- The fields of the bucket table, read so far. -/
structure BucketPartial where
  bucket : Option String := none
  region : Option String := none
  accessKeyId : Option String := none
  secretAccessKey : Option String := none

def bucketFields (d : Decoder V E) : List (Field V E BucketPartial) := [
    field "bucket" [] (·.bucket.isSome) fun p v => do
      return { p with bucket := some (← d.text "a string" v) },
    field "bucket_region" ["bucketregion"] (·.region.isSome) fun p v => do
      return { p with region := some (← d.text "a string" v) },
    field "access_key_id" ["pub"] (·.accessKeyId.isSome) fun p v => do
      return { p with accessKeyId := some (← d.text "a string" v) },
    field "secret_access_key" ["priv"] (·.secretAccessKey.isSome) fun p v => do
      return { p with secretAccessKey := some (← d.text "a string" v) }]

def readBucket (d : Decoder V E) (v : V) : Except E BucketSettings := do
  let p ← d.record "AwsConfig" (bucketFields d) {} v
  let d : BucketSettings := {}
  return { bucket := p.bucket.getD d.bucket, region := p.region.getD d.region,
           accessKeyId := p.accessKeyId.getD d.accessKeyId,
           secretAccessKey := p.secretAccessKey.getD d.secretAccessKey }

/-- The fields of the timeouts table, read so far. -/
structure TimeoutsPartial where
  subprocessSecs : Option Nat := none
  deleteSecs : Option Nat := none
  pollIntervalMs : Option Nat := none

def timeoutsFields (d : Decoder V E) : List (Field V E TimeoutsPartial) := [
    field "subprocess_secs" [] (·.subprocessSecs.isSome) fun p v => do
      return { p with subprocessSecs := some (← d.unsigned "u64" v) },
    field "delete_secs" [] (·.deleteSecs.isSome) fun p v => do
      return { p with deleteSecs := some (← d.unsigned "u64" v) },
    field "poll_interval_ms" [] (·.pollIntervalMs.isSome) fun p v => do
      return { p with pollIntervalMs := some (← d.unsigned "u64" v) }]

def readTimeouts (d : Decoder V E) (v : V) : Except E Timeouts := do
  let p ← d.record "TimeoutConfig" (timeoutsFields d) {} v
  let d : Timeouts := {}
  return { subprocessSecs := p.subprocessSecs.getD d.subprocessSecs,
           deleteSecs := p.deleteSecs.getD d.deleteSecs,
           pollIntervalMs := p.pollIntervalMs.getD d.pollIntervalMs }

/-- The fields of a key, read so far. -/
structure KeyPartial where
  name : Option String := none
  address : Option String := none
  localName : Option String := none
  threshold : Option Nat := none

def keyFields (d : Decoder V E) : List (Field V E KeyPartial) := [
    requiredField "name" (·.name.isSome) fun p v => do
      return { p with name := some (← d.text "a string" v) },
    requiredField "address" (·.address.isSome) fun p v => do
      return { p with address := some (← d.text "a string" v) },
    field "local_name" ["localname"] (·.localName.isSome) fun p v => do
      return { p with localName := some (← d.text "a string" v) },
    field "threshold" [] (·.threshold.isSome) fun p v => do
      return { p with threshold := some (← d.unsigned "usize" v) }]

def readKey (d : Decoder V E) (v : V) : Except E MultisigKey := do
  let p ← d.record "SignerIdentity" (keyFields d) {} v
  return { name := p.name.getD "", address := p.address.getD "",
           localName := p.localName.getD "", threshold := p.threshold.getD 2 }

/-- The fields of a chain, read so far. -/
structure ChainPartial where
  name : Option String := none
  id : Option String := none
  binary : Option String := none
  addressPrefix : Option String := none
  node : Option String := none
  denom : Option String := none

def chainFields (d : Decoder V E) : List (Field V E ChainPartial) := [
    requiredField "name" (·.name.isSome) fun p v => do
      return { p with name := some (← d.text "a string" v) },
    requiredField "id" (·.id.isSome) fun p v => do
      return { p with id := some (← d.text "a string" v) },
    requiredField "binary" (·.binary.isSome) fun p v => do
      return { p with binary := some (← d.text "a string" v) },
    requiredField "prefix" (·.addressPrefix.isSome) fun p v => do
      return { p with addressPrefix := some (← d.text "a string" v) },
    field "node" [] (·.node.isSome) fun p v => do
      return { p with node := some (← d.text "a string" v) },
    field "denom" [] (·.denom.isSome) fun p v => do
      return { p with denom := some (← d.text "a string" v) }]

def readChain (d : Decoder V E) (v : V) : Except E ChainProfile := do
  let p ← d.record "ChainProfile" (chainFields d) {} v
  return { name := p.name.getD "", id := p.id.getD "", binary := p.binary.getD "",
           addressPrefix := p.addressPrefix.getD "", node := p.node.getD "",
           denom := p.denom.getD "" }

/-- The fields of the settings, read so far. -/
structure ConfigPartial where
  user : Option String := none
  keyringBackend : Option String := none
  defaultGas : Option Nat := none
  store : Option StoreSettings := none
  aws : Option BucketSettings := none
  timeouts : Option Timeouts := none
  keys : Option (List MultisigKey) := none
  chains : Option (List ChainProfile) := none

def documentFields (d : Decoder V E) : List (Field V E ConfigPartial) := [
    field "user" [] (·.user.isSome) fun p v => do
      return { p with user := some (← d.text "a string" v) },
    field "keyring_backend" ["keyringbackend"] (·.keyringBackend.isSome) fun p v => do
      return { p with keyringBackend := some (← d.text "a string" v) },
    field "default_gas" ["defaultgas"] (·.defaultGas.isSome) fun p v => do
      return { p with defaultGas := some (← d.unsigned "u64" v) },
    field "store" [] (·.store.isSome) fun p v => do
      return { p with store := some (← readStore d v) },
    field "aws" [] (·.aws.isSome) fun p v => do
      return { p with aws := some (← readBucket d v) },
    field "timeouts" [] (·.timeouts.isSome) fun p v => do
      return { p with timeouts := some (← readTimeouts d v) },
    field "keys" [] (·.keys.isSome) fun p v => do
      return { p with keys := some (← d.list (readKey d) v) },
    field "chains" [] (·.chains.isSome) fun p v => do
      return { p with chains := some (← d.list (readChain d) v) }]

def readDocument (d : Decoder V E) (v : V) : Except E Config := do
  let p ← d.record "Config" (documentFields d) {} v
  let d : Config := {}
  return { user := p.user.getD d.user, keyringBackend := p.keyringBackend.getD d.keyringBackend,
           defaultGas := p.defaultGas.getD d.defaultGas, store := p.store.getD d.store,
           aws := p.aws.getD d.aws, timeouts := p.timeouts.getD d.timeouts,
           keys := p.keys.getD d.keys, chains := p.chains.getD d.chains }

def ofToml (text : String) : Except ConfigError Config := do
  let root ← match Toml.parse text with
    | .ok root => pure root
    | .error e => throw (.parse (e.render text))
  let c ← match readDocument Toml.decoder root with
    | .ok c => pure c
    | .error r => throw (.parse ((r.toError text).render text))
  c.validate
  return c

end Config

end Quorum
