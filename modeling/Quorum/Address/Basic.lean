import Quorum.Address.Bech32

/-!
# Addresses

A multisig key is configured with one bech32 address; each chain shows it under its own
human-readable prefix. Re-prefixing keeps the payload bytes and writes a fresh checksum.
-/

namespace Quorum

/-- Why an address could not be read or re-prefixed. -/
inductive AddressError where
  | decode (address reason : String)
  | badPrefix (pre reason : String)
  | encode (pre reason : String)
  deriving DecidableEq, Repr

namespace AddressError

def kind : AddressError → String
  | .decode _ _ => "Decode"
  | .badPrefix _ _ => "Prefix"
  | .encode _ _ => "Encode"

def message : AddressError → String
  | .decode a r => "invalid bech32 address " ++ a ++ ": " ++ r
  | .badPrefix p r => "invalid bech32 prefix " ++ p ++ ": " ++ r
  | .encode p r => "cannot encode address with prefix " ++ p ++ ": " ++ r

end AddressError

/-- The address `address` written under the prefix `pre`, with the same payload. -/
def convertPrefix (address pre : String) : Except AddressError String :=
  match Bech32.decode address with
  | .error e => .error (.decode address e.message)
  | .ok (_, data) =>
    match Bech32.checkHrp pre with
    | .error e => .error (.badPrefix pre e.message)
    | .ok () =>
      match Bech32.encode pre data with
      | some s => .ok s
      -- the only way encoding fails is a result over the length limit, reported in general terms
      | none => .error (.encode pre "encode error")

def prefixOf (address : String) : Except AddressError String :=
  match Bech32.decode address with
  | .error e => .error (.decode address e.message)
  | .ok (hrp, _) => .ok hrp

end Quorum
