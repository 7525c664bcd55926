/-!
# Bech32

The text encoding of addresses: a human-readable part, the separator `1`, then the data as
characters of a 32-letter alphabet, the last six of which are a checksum over the whole. Both
the first checksum constant (bech32) and the later one (bech32m) are accepted when reading;
writing uses the first one and lowercase letters.

Reading takes the last `1` as the separator. Upper and lower case may not mix anywhere in the
text. The human-readable part is 1 to 83 characters of printable ASCII; the checksum is computed
over its lowercase form. The data characters stand for 5-bit groups; bytes are read from them
most significant bit first, and bits that do not fill a last byte are dropped.
-/

namespace Quorum.Bech32

def alphabet : List Char := "qpzry9x8gf2tvdw0s3jn54khce6mua7l".toList

def charValue? (c : Char) : Option Nat :=
  alphabet.idxOf? c.toLower

def generator : List Nat := [0x3b6a57b2, 0x26508e6d, 0x1ea119fa, 0x3d4233dd, 0x2a1462b3]

def polymodStep (chk v : Nat) : Nat :=
  let top := chk / Nat.pow 2 25
  let shifted := Nat.xor ((chk % Nat.pow 2 25) * 32) v
  (List.range 5).foldl
    (fun acc i => if (top / Nat.pow 2 i) % 2 = 1 then Nat.xor acc (generator.getD i 0) else acc) shifted

def polymod (vs : List Nat) : Nat :=
  vs.foldl polymodStep 1

def hrpValues (hrp : String) : List Nat :=
  let bytes := hrp.toList.map (fun c => c.toLower.toNat)
  bytes.map (· / 32) ++ [0] ++ bytes.map (· % 32)

def bech32Constant : Nat := 1

def bech32mConstant : Nat := 0x2bc830a3

/-- Why the human-readable part is refused. -/
inductive HrpError where
  | empty
  | tooLong (len : Nat)
  | nonAscii (c : Char)
  | invalidByte (b : Nat)
  | mixedCase
  deriving DecidableEq, Repr

def hexText (n : Nat) : String := String.ofList (Nat.toDigits 16 n)

def HrpError.message : HrpError → String
  | .empty => "hrp is empty, must have at least 1 character"
  | .tooLong n => "hrp is too long, found " ++ Nat.repr n ++ " characters, must be <= 126"
  | .nonAscii c => "found non-ASCII character: " ++ c.toString
  | .invalidByte b => "byte value is not valid US-ASCII: '" ++ hexText b ++ "'"
  | .mixedCase => "hrp cannot mix upper and lower case"

/-- Checks the characters of a human-readable part from the left; the first fault wins. -/
def checkHrpChars (lower upper : Bool) : List Char → Except HrpError Unit
  | [] => .ok ()
  | c :: cs =>
    if c.toNat ≥ 128 then .error (.nonAscii c)
    else if c.toNat < 33 || c.toNat > 126 then .error (.invalidByte c.toNat)
    else
      let lower := lower || c.isLower
      let upper := upper || c.isUpper
      if lower && upper then .error .mixedCase else checkHrpChars lower upper cs

def checkHrp (hrp : String) : Except HrpError Unit :=
  if hrp.isEmpty then .error .empty
  else if hrp.utf8ByteSize > 83 then .error (.tooLong hrp.utf8ByteSize)
  else checkHrpChars false false hrp.toList

/-- Why a text is not a bech32 string. -/
inductive DecodeError where
  /-- The text has no separator, a bad character, mixed case or a bad human-readable part. -/
  | parse
  | checksum
  deriving DecidableEq, Repr

def DecodeError.message : DecodeError → String
  | .parse => "parsing failed"
  | .checksum => "no valid bech32 or bech32m checksum"

def lastSeparator? (cs : List Char) : Option Nat :=
  (cs.reverse.idxOf? '1').map (fun i => cs.length - 1 - i)

/-- Bytes from 5-bit groups, most significant bit first; leftover bits are dropped. -/
def groupsToBytes (vs : List Nat) : List UInt8 :=
  let bits := vs.flatMap (fun v => (List.range 5).reverse.map (fun i => (v / Nat.pow 2 i) % 2))
  let rec go : Nat → List Nat → List UInt8
    | 0, _ => []
    | n + 1, bs =>
      if bs.length < 8 then []
      else
        let byte := (bs.take 8).foldl (fun acc b => acc * 2 + b) 0
        byte.toUInt8 :: go n (bs.drop 8)
  go bits.length bits

/-- 5-bit groups from bytes, most significant bit first; the last group is padded with zeros. -/
def bytesToGroups (bs : List UInt8) : List Nat :=
  let bits := bs.flatMap (fun b => (List.range 8).reverse.map (fun i => (b.toNat / Nat.pow 2 i) % 2))
  let padded := bits ++ List.replicate ((5 - bits.length % 5) % 5) 0
  let rec go : Nat → List Nat → List Nat
    | 0, _ => []
    | n + 1, ds =>
      if ds.isEmpty then []
      else (ds.take 5).foldl (fun acc b => acc * 2 + b) 0 :: go n (ds.drop 5)
  go padded.length padded

/-- Reads a bech32 string into its human-readable part, as written, and its data bytes. -/
def decode (s : String) : Except DecodeError (String × List UInt8) :=
  let cs := s.toList
  let mixed := cs.any Char.isUpper && cs.any Char.isLower
  match lastSeparator? cs with
  | none => .error .parse
  | some pos =>
    let hrpChars := cs.take pos
    let dataChars := cs.drop (pos + 1)
    match dataChars.mapM charValue? with
    | none => .error .parse
    | some values =>
      if mixed then .error .parse
      else
        let hrp := String.ofList hrpChars
        match checkHrp hrp with
        | .error _ => .error .parse
        | .ok () =>
          if values.length < 6 || s.utf8ByteSize > 1023 then .error .checksum
          else
            let residue := polymod (hrpValues hrp ++ values)
            if residue = bech32Constant || residue = bech32mConstant then
              .ok (hrp, groupsToBytes (values.take (values.length - 6)))
            else .error .checksum

def checksum (hrp : String) (values : List Nat) : List Nat :=
  let pm := Nat.xor (polymod (hrpValues hrp ++ values ++ List.replicate 6 0)) bech32Constant
  (List.range 6).map (fun i => (pm / Nat.pow 2 (5 * (5 - i))) % 32)

/-- Writes a human-readable part and data bytes as a lowercase bech32 string, if it is no longer
than 1023 characters. -/
def encode (hrp : String) (data : List UInt8) : Option String :=
  let values := bytesToGroups data
  if hrp.length + 1 + values.length + 6 > 1023 then none
  else
    let chars := (values ++ checksum hrp values).map (fun v => alphabet.getD v 'q')
    some (String.ofList (hrp.toList.map Char.toLower) ++ "1" ++ String.ofList chars)

end Quorum.Bech32
