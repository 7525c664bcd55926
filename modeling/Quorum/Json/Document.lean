import Quorum.Json.Reader

/-!
# JSON documents

Reading a whole JSON value into a tree, and skipping a value without keeping it. Skipping checks
the form of the value only: it keeps no text and computes no number, and it walks nested arrays
and objects with a stack of open brackets rather than by descent.

A document is one value with nothing but blanks after it.
-/

namespace Quorum.Json

def nullTail : List UInt8 := [117, 108, 108]

def trueTail : List UInt8 := [114, 117, 101]

def falseTail : List UInt8 := [97, 108, 115, 101]

def Parsed.toNumber : Parsed → Number
  | .nat n => .nat n
  | .neg i => .neg i
  | .double b => .double b

mutual

def readValue (fuel : Nat) : ReadM Value :=
  match fuel with
  | 0 => fail .recursionLimitExceeded
  | fuel + 1 => fixPlace do
    match ← skipBlanks with
    | none => failAhead .eofWhileParsingValue
    | some 110 => bump; expectIdent nullTail; return .null
    | some 116 => bump; expectIdent trueTail; return .bool true
    | some 102 => bump; expectIdent falseTail; return .bool false
    | some 45 => bump; return .number (← readInteger fuel false).toNumber
    | some 34 => bump; return .string (← readString fuel)
    | some 91 =>
      enter
      bump
      let items ← withEnd (readItems fuel true #[]) endArray
      leave
      return .array items.toList
    | some 123 =>
      enter
      bump
      let members ← withEnd (readMembers fuel true []) endObject
      leave
      return .object members
    | some b =>
      if isDigitByte b then return .number (← readInteger fuel true).toNumber
      else failAhead .expectedSomeValue

/-- Reads the items of an array up to, not including, the closing bracket. -/
def readItems (fuel : Nat) (first : Bool) (acc : Array Value) : ReadM (Array Value) :=
  match fuel with
  | 0 => fail .eofWhileParsingList
  | fuel + 1 => do
    match ← nextItem first with
    | none => return acc
    | some _ => readItems fuel false (acc.push (← readValue fuel))

/-- Reads the members of an object up to, not including, the closing brace. -/
def readMembers (fuel : Nat) (first : Bool) (acc : List (String × Value)) :
    ReadM (List (String × Value)) :=
  match fuel with
  | 0 => fail .eofWhileParsingObject
  | fuel + 1 => do
    match ← nextKey first fuel with
    | none => return acc
    | some k =>
      expectColon
      let v ← readValue fuel
      readMembers fuel false (Value.insertMember k v acc)

end

/-- After a closed bracket or a scalar inside open brackets: closes brackets as far as the text
does and returns the bracket to go on in, with the brackets still open around it, or `none` when
the outermost one is closed. -/
def closeFrames (fuel : Nat) (acceptComma : Bool) (frame : UInt8) (stack : List UInt8) :
    ReadM (Option (UInt8 × List UInt8)) :=
  match fuel with
  | 0 => fail .eofWhileParsingValue
  | fuel + 1 => do
    match ← skipBlanks with
    | some 44 =>
      if acceptComma then do bump; return some (frame, stack)
      else return some (frame, stack)
    | some b =>
      if (b = 93 && frame = 91) || (b = 125 && frame = 123) then
        bump
        match stack with
        | [] => return none
        | f :: rest => closeFrames fuel true f rest
      else if acceptComma then
        failAhead (if frame = 91 then .expectedListCommaOrEnd else .expectedObjectCommaOrEnd)
      else return some (frame, stack)
    | none => failAhead (if frame = 91 then .eofWhileParsingList else .eofWhileParsingObject)

def skipKey (fuel : Nat) : ReadM Unit := do
  match ← skipBlanks with
  | some 34 => bump
  | some _ => failAhead .keyMustBeAString
  | none => failAhead .eofWhileParsingObject
  skipString fuel
  match ← skipBlanks with
  | some 58 => bump
  | some _ => failAhead .expectedColon
  | none => failAhead .eofWhileParsingObject

/-- Skips the scalar value at hand and returns `none`, or takes the bracket that opens an array
or an object and returns it. -/
def skipScalarOrOpen (fuel : Nat) : ReadM (Option UInt8) := do
  match ← skipBlanks with
  | none => failAhead .eofWhileParsingValue
  | some 110 => do bump; expectIdent nullTail; pure none
  | some 116 => do bump; expectIdent trueTail; pure none
  | some 102 => do bump; expectIdent falseTail; pure none
  | some 45 => do bump; skipNumber fuel; pure none
  | some 34 => do bump; skipString fuel; pure none
  | some 91 => do bump; pure (some 91)
  | some 123 => do bump; pure (some 123)
  | some b => if isDigitByte b then do skipNumber fuel; pure none else failAhead .expectedSomeValue

/-- Skips a value, checking its form. `stack` holds the brackets open around it. -/
def skipWithin (fuel : Nat) (stack : List UInt8) : ReadM Unit :=
  match fuel with
  | 0 => fail .eofWhileParsingValue
  | fuel + 1 => do
    let opened ← skipScalarOrOpen fuel
    let next ← match opened, stack with
      | some f, _ => closeFrames fuel false f stack
      | none, [] => pure none
      | none, f :: rest => closeFrames fuel true f rest
    match next with
    | none => pure ()
    | some (frame, rest) =>
      if frame = 123 then skipKey fuel
      skipWithin fuel (frame :: rest)

def skipValue (fuel : Nat) : ReadM Unit :=
  skipWithin fuel []

def nestingLimit : Nat := 128

/-- Runs a reading of a whole document: the value, then nothing but blanks. -/
def readDocument {α : Type} (bytes : ByteArray) (r : Nat → ReadM α) : Except Error α :=
  let whole : ReadM α := do
    let a ← r (bytes.size + 1)
    match ← skipBlanks with
    | some _ => failAhead .trailingCharacters
    | none => pure a
  (whole.run.run ⟨bytes, 0, nestingLimit⟩).1

def parseValue (bytes : ByteArray) : Except Error Value :=
  readDocument bytes readValue

end Quorum.Json
