/-!
# UTF-8

Decoding bytes as UTF-8 text, where every ill-formed part becomes the replacement character
U+FFFD. An ill-formed part is the longest run of bytes that starts a well-formed sequence but
cannot be completed, or else a single byte that can start no sequence; each such part is
replaced by one U+FFFD and decoding resumes right after it.
-/

namespace Quorum.Text

def isContinuation (b : UInt8) : Bool :=
  0x80 ≤ b && b ≤ 0xBF

/-- The range that the second byte of a sequence led by `b` must fall in, with the length of
the sequence, or `none` if `b` leads no sequence of two or more bytes. -/
def leadRange (b : UInt8) : Option (Nat × UInt8 × UInt8) :=
  if 0xC2 ≤ b && b ≤ 0xDF then some (2, 0x80, 0xBF)
  else if b = 0xE0 then some (3, 0xA0, 0xBF)
  else if b = 0xED then some (3, 0x80, 0x9F)
  else if 0xE1 ≤ b && b ≤ 0xEF then some (3, 0x80, 0xBF)
  else if b = 0xF0 then some (4, 0x90, 0xBF)
  else if b = 0xF4 then some (4, 0x80, 0x8F)
  else if 0xF1 ≤ b && b ≤ 0xF3 then some (4, 0x80, 0xBF)
  else none

def sequenceValue (len : Nat) (bs : List UInt8) : Nat :=
  let lead := bs.headD 0
  let leadBits := match len with
    | 2 => lead.toNat % 32
    | 3 => lead.toNat % 16
    | _ => lead.toNat % 8
  (bs.drop 1).foldl (fun acc b => acc * 64 + b.toNat % 64) leadBits

/-- How many bytes after the lead byte, at most `len - 1`, continue a sequence whose second byte
must lie in `[lo, hi]`. -/
def continuationRun (len : Nat) (lo hi : UInt8) (rest : List UInt8) : Nat :=
  match rest with
  | [] => 0
  | b :: more =>
    if lo ≤ b && b ≤ hi then 1 + ((more.take (len - 2)).takeWhile isContinuation).length
    else 0

def decodeLossyList (bs : List UInt8) : List Char :=
  go bs.length bs
where
  go : Nat → List UInt8 → List Char
    | 0, _ => []
    | _, [] => []
    | fuel + 1, b :: rest =>
      if b < 0x80 then Char.ofNat b.toNat :: go fuel rest
      else
        match leadRange b with
        | none => '�' :: go fuel rest
        | some (len, lo, hi) =>
          let run := continuationRun len lo hi rest
          if run + 1 = len then
            Char.ofNat (sequenceValue len (b :: rest.take run)) :: go fuel (rest.drop run)
          else '�' :: go fuel (rest.drop run)

def decodeLossy (bs : ByteArray) : String :=
  String.ofList (decodeLossyList bs.toList)

end Quorum.Text
