import Quorum.Json.Document
import Quorum.Decimal.Shortest
import Quorum.Text.Quoted

/-!
# Reading JSON into typed records

Reading a JSON text straight into a value of a fixed shape: a 64-bit or 32-bit natural number, a
string, an optional value, a list, or a record of named fields. A value of the wrong kind is
refused with a sentence that names what was found and what was expected:
`invalid type: floating point `1.0`, expected u64`.

A record may be written as an object, its members in any order, unknown members skipped, or as
an array of its fields in order. A member given twice is refused, and so is a missing member
that has no default.
-/

namespace Quorum.Json

/-- What a reader found where another kind of value was expected. -/
inductive Found where
  | bool (b : Bool)
  | nat (n : Nat)
  | int (i : Int)
  | double (bits : UInt64)
  | string (s : String)
  | null
  | sequence
  | map

def Found.text : Found → String
  | .bool b => "boolean `" ++ (if b then "true" else "false") ++ "`"
  | .nat n => "integer `" ++ Nat.repr n ++ "`"
  | .int i => "integer `" ++ toString i ++ "`"
  | .double bits => "floating point `" ++ Decimal.ofBits bits ++ "`"
  | .string s => "string " ++ Text.quote s
  | .null => "null"
  | .sequence => "sequence"
  | .map => "map"

def invalidType {α : Type} (found : Found) (expected : String) : ReadM α :=
  custom ("invalid type: " ++ found.text ++ ", expected " ++ expected)

def invalidValue {α : Type} (found : Found) (expected : String) : ReadM α :=
  custom ("invalid value: " ++ found.text ++ ", expected " ++ expected)

def Parsed.found : Parsed → Found
  | .nat n => .nat n
  | .neg i => .int i
  | .double b => .double b

/-- Takes the value at hand, whose first byte has been looked at, and refuses it as of the
wrong kind. -/
def refuseValue {α : Type} (fuel : Nat) (expected : String) : ReadM α := fixPlace do
  match ← peekOrNull with
  | 110 => bump; expectIdent nullTail; invalidType .null expected
  | 116 => bump; expectIdent trueTail; invalidType (.bool true) expected
  | 102 => bump; expectIdent falseTail; invalidType (.bool false) expected
  | 45 => bump; invalidType (← readInteger fuel false).found expected
  | 34 => bump; invalidType (.string (← readString fuel)) expected
  | 91 => invalidType .sequence expected
  | 123 => invalidType .map expected
  | b =>
    if isDigitByte b then invalidType (← readInteger fuel true).found expected
    else failAhead .expectedSomeValue

def readNatBelow (bits : Nat) (name : String) (fuel : Nat) : ReadM Nat := fixPlace do
  match ← skipBlanks with
  | none => failAhead .eofWhileParsingValue
  | some b =>
    let n ← if b = 45 then do bump; readInteger fuel false
      else if isDigitByte b then readInteger fuel true
      else refuseValue fuel name
    match n with
    | .nat n => if n < Nat.pow 2 bits then pure n else invalidValue (.nat n) name
    | .neg i => invalidValue (.int i) name
    | .double d => invalidType (.double d) name

def readU64 (fuel : Nat) : ReadM Nat := readNatBelow 64 "u64" fuel

def readU32 (fuel : Nat) : ReadM Nat := readNatBelow 32 "u32" fuel

def readText (fuel : Nat) : ReadM String := fixPlace do
  match ← skipBlanks with
  | none => failAhead .eofWhileParsingValue
  | some 34 => bump; readString fuel
  | some _ => refuseValue fuel "a string"

def readOption {α : Type} (r : Nat → ReadM α) (fuel : Nat) : ReadM (Option α) := do
  match ← skipBlanks with
  | some 110 => bump; expectIdent nullTail; pure none
  | _ => some <$> r fuel

def readListItems {α : Type} (r : Nat → ReadM α) : Nat → Bool → Array α → ReadM (Array α)
  | 0, _, acc => pure acc
  | fuel + 1, first, acc => do
    match ← nextItem first with
    | none => pure acc
    | some _ => readListItems r fuel false (acc.push (← r fuel))

def readList {α : Type} (r : Nat → ReadM α) (fuel : Nat) : ReadM (List α) := fixPlace do
  match ← skipBlanks with
  | none => failAhead .eofWhileParsingValue
  | some 91 =>
    enter
    bump
    let items ← withEnd (readListItems r fuel true #[]) endArray
    leave
    pure items.toList
  | some _ => refuseValue fuel "a sequence"

/-- One named field of a record being read into the accumulator `σ`. -/
structure Field (σ : Type) where
  name : String
  read : σ → Nat → ReadM σ
  present : σ → Bool
  optionalInObject : Bool
  optionalInArray : Bool

/-- The shape of a record: its name, its fields in order, and its empty accumulator. -/
structure Record (σ : Type) where
  name : String
  fields : List (Field σ)
  empty : σ

def readRecordMembers {σ : Type} (fields : List (Field σ)) : Nat → Bool → σ → ReadM σ
  | 0, _, acc => pure acc
  | fuel + 1, first, acc => do
    match ← nextKey first fuel with
    | none => pure acc
    | some k =>
      match fields.find? (·.name == k) with
      | some f =>
        if f.present acc then custom ("duplicate field `" ++ k ++ "`")
        else
          expectColon
          readRecordMembers fields fuel false (← f.read acc fuel)
      | none =>
        expectColon
        skipValue fuel
        readRecordMembers fields fuel false acc

def firstMissing {σ : Type} (fields : List (Field σ)) (acc : σ) : Option String :=
  (fields.find? (fun f => !f.optionalInObject && !f.present acc)).map (·.name)

def readRecordItems {σ : Type} (expecting : String) (fuel : Nat) :
    List (Field σ) → Nat → Bool → σ → ReadM σ
  | [], _, _, acc => pure acc
  | f :: rest, i, first, acc => do
    match ← nextItem first with
    | none =>
      if f.optionalInArray then readRecordItems expecting fuel rest (i + 1) first acc
      else custom ("invalid length " ++ Nat.repr i ++ ", expected " ++ expecting)
    | some _ => readRecordItems expecting fuel rest (i + 1) false (← f.read acc fuel)

def readRecord {σ : Type} (r : Record σ) (fuel : Nat) : ReadM σ := fixPlace do
  match ← skipBlanks with
  | none => failAhead .eofWhileParsingValue
  | some 91 =>
    enter
    bump
    let expecting := "struct " ++ r.name ++ " with " ++ Nat.repr r.fields.length ++ " elements"
    let acc ← withEnd (readRecordItems expecting fuel r.fields 0 true r.empty) endArray
    leave
    pure acc
  | some 123 =>
    enter
    bump
    let body : ReadM σ := do
      let acc ← readRecordMembers r.fields fuel true r.empty
      match firstMissing r.fields acc with
      | some name => custom ("missing field `" ++ name ++ "`")
      | none => pure acc
    let acc ← withEnd body endObject
    leave
    pure acc
  | some _ => refuseValue fuel ("struct " ++ r.name)

end Quorum.Json
