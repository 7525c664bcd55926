import Quorum.Numeral
import Quorum.Coin
import Quorum.Chain.Message

/-!
# Values on the command line

The text given for an option or a positional value is checked before any command runs. A check
accepts the text, or refuses it in one of two ways: as missing, when the empty text stands where
a path must be, or as invalid, with the text as it was given and the reason. A number that reads
but lies outside its range is named in the reason as the number read, so `+0` is refused as
`+0` because `0` is out of range.

Unsigned numbers are read as unsigned 64-bit numerals; a 32-bit number is read as a signed 64-bit
numeral and then bounded, so a number beyond 32 bits is refused for its range, not as too large.
-/

namespace Quorum.Cli

/-- How log lines are written. -/
inductive LogFormat where
  | text
  | json
  deriving DecidableEq, Repr

/-- Reads a log format by name, in any ASCII case; `plain` is another name of `text`. -/
def LogFormat.parse (s : String) : Except String LogFormat :=
  let t := String.ofList (s.toList.map Char.toLower)
  if t = "text" || t = "plain" then .ok .text
  else if t = "json" then .ok .json
  else .error ("unknown log format: " ++ t)

/-- How the text of a value is checked. -/
inductive ValueCheck where
  | text
  | path
  | word (least : Nat)
  | word32
  | coin
  | vote
  | authzMsg
  | logFormat
  deriving DecidableEq, Repr

/-- Why the text of a value was refused. -/
inductive ValueRefusal where
  | missing
  | invalid (shown reason : String)
  deriving DecidableEq, Repr

def wordMax : Nat := Nat.pow 2 64 - 1

def word32Max : Nat := Nat.pow 2 32 - 1

def unreadable {ε α : Type} (s : String) (reason : ε → String) :
    Except ε α → Option ValueRefusal
  | .ok _ => none
  | .error e => some (.invalid s (reason e))

namespace ValueCheck

def check : ValueCheck → String → Option ValueRefusal
  | .text, _ => none
  | .path, s => if s.isEmpty then some .missing else none
  | .word least, s =>
    match Numeral.parse 64 s with
    | .error e => some (.invalid s e.message)
    | .ok n =>
      if least ≤ n then none
      else some (.invalid s
        (toString n ++ " is not in " ++ toString least ++ ".." ++ toString wordMax))
  | .word32, s =>
    match Numeral.parseSigned 64 s with
    | .error e => some (.invalid s e.message)
    | .ok n =>
      if 0 ≤ n ∧ n ≤ word32Max then none
      else some (.invalid s (toString n ++ " is not in 0..=" ++ toString word32Max))
  | .coin, s => unreadable s CoinError.message (Coin.parse s)
  | .vote, s => unreadable s id (VoteOption.parse s)
  | .authzMsg, s => unreadable s id (AuthzMsg.parse s)
  | .logFormat, s => unreadable s id (LogFormat.parse s)

end ValueCheck

end Quorum.Cli
