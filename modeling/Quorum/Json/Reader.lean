import Quorum.Json.Error
import Quorum.Json.Value

/-!
# Reading JSON text

A reader walks the bytes of a JSON text from left to right. Its place is the number of bytes
taken so far; a failure is reported either at that place or, when the byte just looked at is to
blame, one byte further. Blanks between tokens are the space, tab, line feed and carriage return.

Strings must be UTF-8 when their text is kept; a string that is only skipped is checked for its
escapes and control characters alone. Numbers are read as a natural number below `2^64`, a
negative integer not below `-2^63`, or else a double computed from the digits as a 64-bit
significand scaled by a power of ten, the digits beyond the significand's reach dropped.

Nesting is limited to 128 levels. Every loop takes at least one byte per round, so a budget of
rounds equal to the length of the text is never used up.
-/

namespace Quorum.Json

/-- The state of a reader: the text, the place reached, and the nesting levels still allowed. -/
structure Scan where
  bytes : ByteArray
  pos : Nat
  depth : Nat

/-- A computation of a reader. A failure keeps the place it was found at, so that reading can
look past it, as the end of an array or object is still looked for after a failure inside. -/
abbrev ReadM := ExceptT Error (StateM Scan)

def placeOf (bytes : ByteArray) (i : Nat) : Nat × Nat :=
  let before := (bytes.extract 0 i).toList
  let newlines := before.count 10
  let lineStart := match (before.reverse.idxOf? 10) with
    | some j => before.length - j
    | none => 0
  (1 + newlines, i - lineStart)

def fail {α : Type} (c : ErrorCode) : ReadM α := do
  let s ← get
  throw ⟨c, some (placeOf s.bytes s.pos)⟩

/-- Fails one byte past the place reached, at most at the end of the text. -/
def failAhead {α : Type} (c : ErrorCode) : ReadM α := do
  let s ← get
  throw ⟨c, some (placeOf s.bytes (min s.bytes.size (s.pos + 1)))⟩

/-- Runs `r` and returns its outcome, failure included, keeping the place it reached. -/
def attempt {α : Type} (r : ReadM α) : ReadM (Except Error α) :=
  ExceptT.lift r.run

def fixPlace {α : Type} (r : ReadM α) : ReadM α := do
  match ← attempt r with
  | .ok a => pure a
  | .error ⟨c, none⟩ => fail c
  | .error e => throw e

def custom {α : Type} (text : String) : ReadM α :=
  throw ⟨.custom text, none⟩

def peek? : ReadM (Option UInt8) := do
  let s ← get
  return s.bytes[s.pos]?

def peekOrNull : ReadM UInt8 := do
  return (← peek?).getD 0

def bump : ReadM Unit :=
  modify fun s => { s with pos := s.pos + 1 }

def next? : ReadM (Option UInt8) := do
  let b ← peek?
  if b.isSome then bump
  return b

def skipBlanks : ReadM (Option UInt8) := do
  let s ← get
  let rest := (s.bytes.extract s.pos s.bytes.size).toList
  let n := (rest.takeWhile (fun b => b = 32 || b = 10 || b = 9 || b = 13)).length
  set { s with pos := s.pos + n }
  peek?

def expectIdent : List UInt8 → ReadM Unit
  | [] => pure ()
  | b :: bs => do
    match ← next? with
    | none => fail .eofWhileParsingValue
    | some c => if c = b then expectIdent bs else fail .expectedSomeIdent

def isDigitByte (b : UInt8) : Bool := 48 ≤ b && b ≤ 57

/-- A number as read: a natural below `2^64`, a negative integer, or a double's bits. -/
inductive Parsed where
  | nat (n : Nat)
  | neg (i : Int)
  | double (bits : UInt64)
  deriving DecidableEq, Repr

def powerOfTen (k : Nat) : Float := Float.ofScientific 1 false k

/-- A significand scaled by a power of ten, as a double, step by step: the significand is
rounded to a double first, then multiplied or divided by the power; a power beyond `10^308`
divides by `10^308` first. Fails for an infinite result. -/
def scaleSignificand (positive : Bool) (significand : Nat) (exponent : Int) : ReadM UInt64 := do
  let rec go : Nat → Float → Int → ReadM Float
    | 0, f, _ => pure f
    | fuel + 1, f, e =>
      if e.natAbs ≤ 308 then
        if e ≥ 0 then
          let g := f * powerOfTen e.natAbs
          if g.isInf then fail .numberOutOfRange else pure g
        else pure (f / powerOfTen e.natAbs)
      else if f == 0 then pure f
      else if e ≥ 0 then fail .numberOutOfRange
      else go fuel (f / powerOfTen 308) (e + 308)
  let f ← go 40 significand.toFloat exponent
  return (if positive then f else -f).toBits

def maxU64 : Nat := Nat.pow 2 64 - 1

def skipDigits (fuel : Nat) : ReadM Nat := do
  match fuel with
  | 0 => return 0
  | fuel + 1 =>
    if isDigitByte (← peekOrNull) then
      bump
      return 1 + (← skipDigits fuel)
    else return 0

def readExponent (fuel : Nat) (positive : Bool) (significand : Nat) (start : Int) : ReadM UInt64 := do
  bump
  let positiveExp ← match ← peekOrNull with
    | 43 => do bump; pure true
    | 45 => do bump; pure false
    | _ => pure true
  match ← next? with
  | none => fail .eofWhileParsingValue
  | some c =>
    if !isDigitByte c then fail .invalidNumber
    else
      let rec digits : Nat → Nat → ReadM (Option Nat)
        | 0, e => pure (some e)
        | fuel + 1, e => do
          let b ← peekOrNull
          if isDigitByte b then
            bump
            let e' := e * 10 + (b.toNat - 48)
            if e' > 2147483647 then pure none else digits fuel e'
          else pure (some e)
      match ← digits fuel (c.toNat - 48) with
      | some e =>
        let final := if positiveExp then start + e else start - e
        scaleSignificand positive significand final
      | none =>
        -- the exponent overflows: a growing number is out of range at once, a shrinking one
        -- is zero whatever its other digits
        if positiveExp && significand ≠ 0 then fail .numberOutOfRange
        else
          let _ ← skipDigits fuel
          return (if positive then (0.0 : Float) else -0.0).toBits

def readDecimal (fuel : Nat) (positive : Bool) (significand : Nat) (before : Int) : ReadM UInt64 := do
  bump
  let rec digits : Nat → Nat → Int → ReadM (Nat × Int × Bool)
    | 0, m, e => pure (m, e, false)
    | fuel + 1, m, e => do
      let b ← peekOrNull
      if isDigitByte b then
        let m' := m * 10 + (b.toNat - 48)
        if m' > maxU64 then pure (m, e, true)
        else do bump; digits fuel m' (e - 1)
      else pure (m, e, false)
  let (m, after, overflowed) ← digits fuel significand 0
  if overflowed then
    let _ ← skipDigits fuel
    match ← peekOrNull with
    | 101 | 69 => readExponent fuel positive m (before + after)
    | _ => scaleSignificand positive m (before + after)
  else
    if after = 0 then
      match ← peek? with
      | some _ => failAhead .invalidNumber
      | none => failAhead .eofWhileParsingValue
    else
      match ← peekOrNull with
      | 101 | 69 => readExponent fuel positive m (before + after)
      | _ => scaleSignificand positive m (before + after)

def readNumberTail (fuel : Nat) (positive : Bool) (significand : Nat) : ReadM Parsed := do
  match ← peekOrNull with
  | 46 => return .double (← readDecimal fuel positive significand 0)
  | 101 | 69 => return .double (← readExponent fuel positive significand 0)
  | _ =>
    if positive then return .nat significand
    else if significand = 0 || significand > Nat.pow 2 63 then
      return .double (-(significand.toFloat)).toBits
    else return .neg (-(significand : Int))

def readInteger (fuel : Nat) (positive : Bool) : ReadM Parsed := do
  match ← next? with
  | none => fail .eofWhileParsingValue
  | some 48 =>
    if isDigitByte (← peekOrNull) then failAhead .invalidNumber
    else readNumberTail fuel positive 0
  | some c =>
    if isDigitByte c then
      let rec digits : Nat → Nat → ReadM Parsed
        | 0, m => readNumberTail 0 positive m
        | fuel + 1, m => do
          let b ← peekOrNull
          if isDigitByte b then
            let m' := m * 10 + (b.toNat - 48)
            if m' > maxU64 then
              -- too long for 64 bits: count the other integer digits as powers of ten
              let extra ← skipDigits fuel
              match ← peekOrNull with
              | 46 => return .double (← readDecimal fuel positive m extra)
              | 101 | 69 => return .double (← readExponent fuel positive m extra)
              | _ => return .double (← scaleSignificand positive m extra)
            else do bump; digits fuel m'
          else readNumberTail fuel positive m
      digits fuel (c.toNat - 48)
    else fail .invalidNumber

def skipExponent (fuel : Nat) : ReadM Unit := do
  bump
  match ← peekOrNull with
  | 43 | 45 => bump
  | _ => pure ()
  if isDigitByte ((← next?).getD 0) then
    let _ ← skipDigits fuel
  else fail .invalidNumber

/-- Skips what may follow the integer digits of a number: a fraction, an exponent, or both. -/
def skipNumberTail (fuel : Nat) : ReadM Unit := do
  match ← peekOrNull with
  | 46 =>
    bump
    let n ← skipDigits fuel
    if n = 0 then failAhead .invalidNumber
    match ← peekOrNull with
    | 101 | 69 => skipExponent fuel
    | _ => pure ()
  | 101 | 69 => skipExponent fuel
  | _ => pure ()

def skipNumber (fuel : Nat) : ReadM Unit := do
  let first := (← next?).getD 0
  if first = 48 then
    if isDigitByte (← peekOrNull) then failAhead .invalidNumber
  else if isDigitByte first then
    let _ ← skipDigits fuel
  else fail .invalidNumber
  skipNumberTail fuel

def hexValue? (b : UInt8) : Option Nat :=
  if 48 ≤ b && b ≤ 57 then some (b.toNat - 48)
  else if 97 ≤ b && b ≤ 102 then some (b.toNat - 87)
  else if 65 ≤ b && b ≤ 70 then some (b.toNat - 55)
  else none

def readHexEscape : ReadM Nat := do
  let s ← get
  if s.pos + 4 ≤ s.bytes.size then
    let ds := (s.bytes.extract s.pos (s.pos + 4)).toList
    set { s with pos := s.pos + 4 }
    match ds.mapM hexValue? with
    | some vs => return vs.foldl (fun acc v => acc * 16 + v) 0
    | none => fail .invalidEscape
  else
    set { s with pos := s.bytes.size }
    fail .eofWhileParsingString

def utf8Of (n : Nat) : List UInt8 :=
  (Char.ofNat n).toString.toUTF8.toList

def readUnicodeEscape : ReadM (List UInt8) := do
  let n ← readHexEscape
  if 0xDC00 ≤ n && n ≤ 0xDFFF then fail .loneLeadingSurrogateInHexEscape
  else if n < 0xD800 || n > 0xDBFF then return utf8Of n
  else
    match ← next? with
    | some 92 =>
      match ← next? with
      | some 117 =>
        let n2 ← readHexEscape
        if n2 < 0xDC00 || n2 > 0xDFFF then fail .loneLeadingSurrogateInHexEscape
        else return utf8Of ((((n - 0xD800) * 1024) + (n2 - 0xDC00)) + 0x10000)
      | some _ => fail .unexpectedEndOfHexEscape
      | none => fail .eofWhileParsingString
    | some _ => fail .unexpectedEndOfHexEscape
    | none => fail .eofWhileParsingString

def readEscape : ReadM (List UInt8) := do
  match ← next? with
  | none => fail .eofWhileParsingString
  | some 34 => return [34]
  | some 92 => return [92]
  | some 47 => return [47]
  | some 98 => return [8]
  | some 102 => return [12]
  | some 110 => return [10]
  | some 114 => return [13]
  | some 116 => return [9]
  | some 117 => readUnicodeEscape
  | some _ => fail .invalidEscape

/-- Reads the bytes of a string whose opening quote has been taken, up to and past the closing
quote, after the bytes `acc` already read. -/
def readStringBytes (fuel : Nat) (acc : Array UInt8) : ReadM (Array UInt8) := do
  match fuel with
  | 0 => fail .eofWhileParsingString
  | fuel + 1 =>
    match ← next? with
    | none => fail .eofWhileParsingString
    | some 34 => return acc
    | some 92 =>
      let e ← readEscape
      readStringBytes fuel (acc ++ e.toArray)
    | some b =>
      if b < 32 then fail .controlCharacterWhileParsingString
      else readStringBytes fuel (acc.push b)

/-- The length of the well-formed UTF-8 sequence that `bs` starts with, if it starts with one:
an ASCII byte, or a lead byte followed by the continuation bytes it calls for, where the ranges
allowed after the leads `E0`, `ED`, `F0` and `F4` shut out overlong forms, surrogates and code
points past `10FFFF`. -/
def utf8SequenceLength (bs : List UInt8) : Option Nat :=
  let within (lo hi : UInt8) (b : UInt8) := lo ≤ b && b ≤ hi
  match bs with
  | [] => none
  | b :: rest =>
    if b < 0x80 then some 1
    else if within 0xC2 0xDF b then
      match rest with
      | c :: _ => if within 0x80 0xBF c then some 2 else none
      | _ => none
    else if within 0xE0 0xEF b then
      let lo : UInt8 := if b = 0xE0 then 0xA0 else 0x80
      let hi : UInt8 := if b = 0xED then 0x9F else 0xBF
      match rest with
      | c1 :: c2 :: _ => if within lo hi c1 && within 0x80 0xBF c2 then some 3 else none
      | _ => none
    else if within 0xF0 0xF4 b then
      let lo : UInt8 := if b = 0xF0 then 0x90 else 0x80
      let hi : UInt8 := if b = 0xF4 then 0x8F else 0xBF
      match rest with
      | c1 :: c2 :: c3 :: _ =>
        if within lo hi c1 && within 0x80 0xBF c2 && within 0x80 0xBF c3 then some 4 else none
      | _ => none
    else none

/-- How many bytes at the start of `bs` are well-formed UTF-8, taken sequence by sequence; each
round takes at least one byte, so `fuel` equal to the length of `bs` is never used up. -/
def validUtf8Prefix : Nat → List UInt8 → Nat
  | 0, _ => 0
  | fuel + 1, bs =>
    match utf8SequenceLength bs with
    | some n => n + validUtf8Prefix fuel (bs.drop n)
    | none => 0

/-- Reads a string whose opening quote has been taken; its text must be UTF-8. Text that is not
is reported one byte past the first byte between the quotes that starts no well-formed
sequence. Escapes stand for whole characters and are ASCII themselves, so that byte is the same
whether it is looked for in the text as written or as read. -/
def readString (fuel : Nat) : ReadM String := do
  let start := (← get).pos
  let bs ← readStringBytes fuel #[]
  match String.fromUTF8? (ByteArray.mk bs) with
  | some s => return s
  | none =>
    let s ← get
    let written := (s.bytes.extract start (s.pos - 1)).toList
    let bad := start + validUtf8Prefix written.length written
    throw ⟨.invalidUnicodeCodePoint, some (placeOf s.bytes (bad + 1))⟩

def skipString (fuel : Nat) : ReadM Unit := do
  match fuel with
  | 0 => fail .eofWhileParsingString
  | fuel + 1 =>
    match ← peek? with
    | none => fail .eofWhileParsingString
    | some 34 => bump
    | some 92 =>
      bump
      match ← next? with
      | none => fail .eofWhileParsingString
      | some 117 => let _ ← readHexEscape; skipString fuel
      | some c =>
        if c = 34 || c = 92 || c = 47 || c = 98 || c = 102 || c = 110 || c = 114 || c = 116 then
          skipString fuel
        else fail .invalidEscape
    | some b => if b < 32 then fail .controlCharacterWhileParsingString else do bump; skipString fuel

def enter : ReadM Unit := do
  let s ← get
  if s.depth ≤ 1 then failAhead .recursionLimitExceeded
  else set { s with depth := s.depth - 1 }

def leave : ReadM Unit :=
  modify fun s => { s with depth := s.depth + 1 }

/-- Ends an array: the closing bracket, or the failure that stands in its place. -/
def endArray : ReadM Unit := do
  match ← skipBlanks with
  | some 93 => bump
  | some 44 =>
    bump
    match ← skipBlanks with
    | some 93 => failAhead .trailingComma
    | _ => failAhead .trailingCharacters
  | some _ => failAhead .trailingCharacters
  | none => failAhead .eofWhileParsingList

/-- Ends an object: the closing brace, or the failure that stands in its place. -/
def endObject : ReadM Unit := do
  match ← skipBlanks with
  | some 125 => bump
  | some 44 => failAhead .trailingComma
  | some _ => failAhead .trailingCharacters
  | none => failAhead .eofWhileParsingObject

/-- Runs the body of an array or object, then its end, even after a failure of the body; the
body's failure wins over the end's. -/
def withEnd {α : Type} (body : ReadM α) (close : ReadM Unit) : ReadM α := do
  let r ← attempt body
  let c ← attempt close
  match r, c with
  | .ok a, .ok () => pure a
  | .error e, _ => throw e
  | .ok _, .error e => throw e

/-- Before the next item of an array: `none` at the closing bracket, else the first byte of the
item. `first` tells whether an item was read already. -/
def nextItem (first : Bool) : ReadM (Option UInt8) := do
  match ← skipBlanks with
  | some 93 => return none
  | some 44 =>
    if first then failAhead .expectedListCommaOrEnd
    else
      bump
      match ← skipBlanks with
      | some 93 => failAhead .trailingComma
      | some b => return some b
      | none => failAhead .eofWhileParsingValue
  | some b => if first then return some b else failAhead .expectedListCommaOrEnd
  | none => failAhead .eofWhileParsingList

/-- Before the next key of an object: `none` at the closing brace, else the key, read. -/
def nextKey (first : Bool) (fuel : Nat) : ReadM (Option String) := do
  let b ← match ← skipBlanks with
    | some 125 => return none
    | some 44 =>
      if first then failAhead .expectedObjectCommaOrEnd
      else do
        bump
        pure (← skipBlanks)
    | some b => if first then pure (some b) else failAhead .expectedObjectCommaOrEnd
    | none => failAhead .eofWhileParsingObject
  match b with
  | some 34 => bump; return some (← readString fuel)
  | some 125 => failAhead .trailingComma
  | some _ => failAhead .keyMustBeAString
  | none => failAhead .eofWhileParsingValue

def expectColon : ReadM Unit := do
  match ← skipBlanks with
  | some 58 => bump
  | some _ => failAhead .expectedColon
  | none => failAhead .eofWhileParsingObject

end Quorum.Json
