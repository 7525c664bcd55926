/-!
# Unsigned numerals

Reading an unsigned integer of a fixed width from decimal text: an optional `+`, then at least one
ASCII digit and nothing else. A value beyond the width is refused rather than wrapped. Each
failure has its own cause, and the causes are told apart in this order: no text at all, a
character that is not a digit, a value too large.

A signed numeral may also start with `-`; its value must not be below `-2 ^ (bits - 1)`.
-/

namespace Quorum

/-- Why a text is not an unsigned numeral of the wanted width. -/
inductive NumeralError where
  | empty
  | invalidDigit
  | tooLarge
  | tooSmall
  deriving DecidableEq, Repr

def NumeralError.message : NumeralError → String
  | .empty => "cannot parse integer from empty string"
  | .invalidDigit => "invalid digit found in string"
  | .tooLarge => "number too large to fit in target type"
  | .tooSmall => "number too small to fit in target type"

namespace Numeral

def digitsValue (cs : List Char) : Nat :=
  cs.foldl (fun acc c => acc * 10 + (c.toNat - '0'.toNat)) 0

/-- Reads decimal digits onto the value `acc`, left to right. The first character that is not a
digit, or the first digit that takes the value to `2 ^ bits`, ends the reading. -/
def readDigits (bits : Nat) (acc : Nat) : List Char → Except NumeralError Nat
  | [] => .ok acc
  | c :: cs =>
    if c.isDigit then
      let v := acc * 10 + (c.toNat - '0'.toNat)
      if v < Nat.pow 2 bits then readDigits bits v cs else .error .tooLarge
    else .error .invalidDigit

def parse (bits : Nat) (s : String) : Except NumeralError Nat :=
  match s.toList with
  | [] => .error .empty
  | ['+'] => .error .invalidDigit
  | '+' :: ds => readDigits bits 0 ds
  | ds => readDigits bits 0 ds

/-- Reads decimal digits onto the value `acc`, left to right, refusing with `beyond` the first
digit that takes the value to `limit`. -/
def readBelow (limit : Nat) (beyond : NumeralError) (acc : Nat) :
    List Char → Except NumeralError Nat
  | [] => .ok acc
  | c :: cs =>
    if c.isDigit then
      let v := acc * 10 + (c.toNat - '0'.toNat)
      if v < limit then readBelow limit beyond v cs else .error beyond
    else .error .invalidDigit

def parseSigned (bits : Nat) (s : String) : Except NumeralError Int :=
  match s.toList with
  | [] => .error .empty
  | ['+'] | ['-'] => .error .invalidDigit
  | '-' :: ds => (readBelow (Nat.pow 2 (bits - 1) + 1) .tooSmall 0 ds).map fun n => -(n : Int)
  | '+' :: ds => (readBelow (Nat.pow 2 (bits - 1)) .tooLarge 0 ds).map Int.ofNat
  | ds => (readBelow (Nat.pow 2 (bits - 1)) .tooLarge 0 ds).map Int.ofNat

def parseU64 (s : String) : Except NumeralError UInt64 :=
  (parse 64 s).map Nat.toUInt64

def parseU128 (s : String) : Except NumeralError Nat :=
  parse 128 s

def parseU32 (s : String) : Except NumeralError Nat :=
  parse 32 s

end Numeral

end Quorum
