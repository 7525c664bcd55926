import Quorum.Numeral
import Quorum.Text.Blank
import Quorum.Text.Quoted

/-!
# Coins

An amount of one denomination, written as the amount's decimal digits followed directly by the
denomination: `2500uatom`, `7ibc/27394FB0...`. Amounts are 128-bit.

A denomination starts with an ASCII letter, is 2 to 128 characters long, and holds only ASCII
letters, digits and `/ : . _ -`.

Reading trims blanks from both ends, takes the longest run of ASCII digits as the amount and the
rest as the denomination.
-/

namespace Quorum

def amountBound : Nat := Nat.pow 2 128

/-- Why a text is not a coin. -/
inductive CoinError where
  | format (text : String)
  | invalidDenom (denom : String)
  | overflow (text : String)
  deriving DecidableEq, Repr

namespace CoinError

def kind : CoinError → String
  | .format _ => "Format"
  | .invalidDenom _ => "InvalidDenom"
  | .overflow _ => "Overflow"

def message : CoinError → String
  | .format s => "invalid coin " ++ Text.quote s ++ ": expected amount followed by denom, e.g. 100uatom"
  | .invalidDenom d => "invalid denomination: " ++ d
  | .overflow s => "amount overflow in " ++ s

end CoinError

def denomChar (c : Char) : Bool :=
  c.isAlphanum || c = '/' || c = ':' || c = '.' || c = '_' || c = '-'

def validDenom (d : String) : Bool :=
  match d.toList with
  | [] => false
  | c :: rest => c.isAlpha && 2 ≤ d.length && d.length ≤ 128 && rest.all denomChar

/-- An amount of one denomination. -/
structure Coin where
  amount : Nat
  denom : String
  amount_lt : amount < amountBound
  denom_valid : validDenom denom = true
  deriving DecidableEq

namespace Coin

/-- The coin of an amount and a denomination, if the denomination is valid. -/
def new? (amount : Nat) (h : amount < amountBound) (denom : String) : Except CoinError Coin :=
  if hd : validDenom denom = true then .ok ⟨amount, denom, h, hd⟩ else .error (.invalidDenom denom)

def render (c : Coin) : String :=
  Nat.repr c.amount ++ c.denom

def parse (s : String) : Except CoinError Coin :=
  let t := Text.trimBlank s
  let cs := t.toList
  let digits := cs.takeWhile Char.isDigit
  let rest := cs.dropWhile Char.isDigit
  if rest.isEmpty || digits.isEmpty then .error (.format t)
  else
    let amount := Numeral.digitsValue digits
    if h : amount < amountBound then new? amount h (String.ofList rest)
    else .error (.overflow t)

def add? (a b : Coin) : Option Coin :=
  if a.denom = b.denom then
    if h : a.amount + b.amount < amountBound then some ⟨a.amount + b.amount, a.denom, h, a.denom_valid⟩
    else none
  else none

end Coin

end Quorum
