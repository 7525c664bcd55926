import Quorum.Config.Basic
import Quorum.Toml.Write

/-!
# Showing settings

Settings are shown as TOML with the bucket secret replaced by `<redacted>` when there is one:
the plain settings first, then the tables `store`, `aws` and `timeouts`, then one `[[keys]]` and
one `[[chains]]` table per key and chain, each table after a blank line. An empty list of keys
or chains is written as `[]` among the plain settings; a file store without a directory leaves
`path` out. Numbers must fit a signed 64-bit integer to be written.

The bucket settings are also shown on one line with the secret always hidden.
-/

namespace Quorum

open Toml

def redactedText : String := "<redacted>"

def BucketSettings.describe (b : BucketSettings) : String :=
  "AwsConfig \x7b bucket: " ++ Text.quote b.bucket ++ ", bucket_region: " ++ Text.quote b.region ++
    ", access_key_id: " ++ Text.quote b.accessKeyId ++ ", secret_access_key: " ++
    Text.quote redactedText ++ " \x7d"

namespace Config

def redact (c : Config) : Config :=
  if c.aws.secretAccessKey.isEmpty then c
  else { c with aws := { c.aws with secretAccessKey := redactedText } }

def writeNumber (n : Nat) : Except ConfigError String :=
  if n < Nat.pow 2 63 then .ok (toString n)
  else .error (.parse "Failed to serialize config: out-of-range value for u64 type")

def keyTable (k : MultisigKey) : Except ConfigError String := do
  return "\n[[keys]]\n" ++ writePair "name" (writeString k.name) ++
    writePair "address" (writeString k.address) ++
    writePair "local_name" (writeString k.localName) ++
    writePair "threshold" (← writeNumber k.threshold)

def chainTable (p : ChainProfile) : String :=
  "\n[[chains]]\n" ++ writePair "name" (writeString p.name) ++ writePair "id" (writeString p.id) ++
    writePair "binary" (writeString p.binary) ++
    writePair "prefix" (writeString p.addressPrefix) ++
    writePair "node" (writeString p.node) ++ writePair "denom" (writeString p.denom)

def toRedactedToml (c : Config) : Except ConfigError String := do
  let c := c.redact
  let plain := writePair "user" (writeString c.user) ++
    writePair "keyring_backend" (writeString c.keyringBackend) ++
    writePair "default_gas" (← writeNumber c.defaultGas) ++
    (if c.keys.isEmpty then writePair "keys" "[]" else "") ++
    (if c.chains.isEmpty then writePair "chains" "[]" else "")
  let store := "\n[store]\n" ++ writePair "backend" (writeString c.store.backend.name) ++
    (match c.store.path with
     | some p => writePair "path" (writeString p)
     | none => "")
  let aws := "\n[aws]\n" ++ writePair "bucket" (writeString c.aws.bucket) ++
    writePair "bucket_region" (writeString c.aws.region) ++
    writePair "access_key_id" (writeString c.aws.accessKeyId) ++
    writePair "secret_access_key" (writeString c.aws.secretAccessKey)
  let timeouts := "\n[timeouts]\n" ++
    writePair "subprocess_secs" (← writeNumber c.timeouts.subprocessSecs) ++
    writePair "delete_secs" (← writeNumber c.timeouts.deleteSecs) ++
    writePair "poll_interval_ms" (← writeNumber c.timeouts.pollIntervalMs)
  let keys ← c.keys.mapM keyTable
  return plain ++ store ++ aws ++ timeouts ++ String.join keys ++
    String.join (c.chains.map chainTable)

end Config

end Quorum
