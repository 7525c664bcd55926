import Quorum.Chain.Error
import Quorum.Json.Decode
import Quorum.Text.Utf8
import Quorum.Text.Blank

/-!
# Outcomes of submissions

What the chain answered to a submitted transaction: a result code, 0 for success, and the
transaction's hash. The program prints it either as a JSON object with members `code` and
`txhash`, possibly followed by other text, or as lines `code: 0` and `txhash: ABC` among others.

The JSON form is tried when the text starts with `{` after blanks; if that object cannot be
read, the lines are read instead. Of the lines, the first `code:` line and the first `txhash:`
line count; a hash loses surrounding quotes, and an empty hash counts as none.
-/

namespace Quorum

/-- What the chain answered to a submitted transaction. -/
structure Outcome where
  code : Nat
  txhash : String
  deriving DecidableEq, Repr

namespace Outcome

def isSuccess (o : Outcome) : Bool := o.code = 0

def complete (code : Option Nat) (txhash : Option String) : Except ChainError Outcome :=
  match code with
  | none => .error (.unparsable "couldn't find code in tx response")
  | some c =>
    match txhash with
    | some h => if h.isEmpty then .error (.unparsable "couldn't find txhash in tx response")
      else .ok ⟨c, h⟩
    | none => .error (.unparsable "couldn't find txhash in tx response")

/-- The members read so far from the JSON form. -/
structure Partial where
  code : Option (Option Nat) := none
  txhash : Option (Option String) := none

def shape : Json.Record Partial where
  name := "JsonResult"
  empty := {}
  fields := [
    { name := "code", optionalInObject := true, optionalInArray := false,
      present := fun p => p.code.isSome,
      read := fun p fuel => do return { p with code := some (← Json.readOption Json.readU32 fuel) } },
    { name := "txhash", optionalInObject := true, optionalInArray := false,
      present := fun p => p.txhash.isSome,
      read := fun p fuel => do
        return { p with txhash := some (← Json.readOption Json.readText fuel) } }]

def readLeadingObject (text : String) : Option Partial :=
  let bytes := text.toUTF8
  match ((Json.readRecord shape (bytes.size + 1)).run.run ⟨bytes, 0, Json.nestingLimit⟩).1 with
  | .ok p => some p
  | .error _ => none

def dropQuotes (s : String) : String :=
  String.ofList (((s.toList.dropWhile (· = '"')).reverse.dropWhile (· = '"')).reverse)

def isCodeLine (line : String) : Bool :=
  "code:".toList.isPrefixOf (Text.trimBlank line).toList

def isHashLine (line : String) : Bool :=
  "txhash:".toList.isPrefixOf (Text.trimBlank line).toList

def lineValue (n : Nat) (line : String) : String :=
  Text.trimBlank (String.ofList ((Text.trimBlank line).toList.drop n))

/-- Reads one line into the code and the hash found so far, which it keeps; a code that is not a
number is refused. -/
def readLine (line : String) (code : Option Nat) (txhash : Option String) :
    Except ChainError (Option Nat × Option String) :=
  if isCodeLine line then
    match code with
    | some _ => .ok (code, txhash)
    | none =>
      match Numeral.parseU32 (lineValue 5 line) with
      | .ok c => .ok (some c, txhash)
      | .error _ =>
        .error (.unparsable ("code " ++ Text.quote (lineValue 5 line) ++ " in tx response is not an integer"))
  else if isHashLine line then
    match txhash with
    | some _ => .ok (code, txhash)
    | none => .ok (code, some (dropQuotes (lineValue 7 line)))
  else .ok (code, txhash)

def readLines : List String → Option Nat → Option String → Except ChainError Outcome
  | [], code, txhash => complete code txhash
  | line :: rest, code, txhash => do
    let (code, txhash) ← readLine line code txhash
    readLines rest code txhash

def parse (output : ByteArray) : Except ChainError Outcome :=
  let text := Text.decodeLossy output
  let leading := (text.toList.dropWhile Text.isBlank)
  let fromJson : Option Partial :=
    if leading.head? = some '{' then readLeadingObject (String.ofList leading) else none
  match fromJson with
  | some p => complete (p.code.getD none) (p.txhash.getD none)
  | none => readLines ((text.toList.splitOn '\n').map String.ofList) none none

end Outcome

end Quorum
