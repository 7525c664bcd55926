import Quorum.Toml.Lexeme

/-!
# Numbers, booleans and dates of TOML

An integer is decimal with an optional sign, or hexadecimal, octal or binary after `0x`, `0o`,
`0b`; underscores may stand between digits; its value must fit a signed 64-bit integer. A float
is a decimal integer with a fraction, an exponent or both, or `inf` or `nan` with an optional
sign. A date and time follows RFC 3339, with the time, the offset or the date left out.

The reader of a value tries a date first, then a float, then an integer, so `1979-05-27` is a
date and `1e3` a float.
-/

namespace Quorum.Toml

open Parser

def decimalValue (cs : List Char) : Nat :=
  cs.foldl (fun acc d => acc * 10 + (d.toNat - '0'.toNat)) 0

/-- A first digit read by `first`, then digits of the class `isDigitChar`, single underscores
allowed between them. -/
def digitRun (first : Parser Char) (isDigitChar : Char → Bool) : Parser Unit := do
  let _ ← first
  let _ ← many (orElse (do let _ ← oneOf isDigitChar)
    (do char '_'; let _ ← cut (expecting [.description "digit"] (oneOf isDigitChar))))

def isSign (c : Char) : Bool := c = '+' || c = '-'

/-- The text of a decimal integer: a sign, then `0` or digits not starting with `0`. -/
def decimalInteger : Parser (List Char) :=
  reading "integer" (consumed do
    let _ ← opt (oneOf isSign)
    orElse (digitRun (oneOf fun c => '1' ≤ c && c ≤ '9') Char.isDigit)
      (do let _ ← oneOf Char.isDigit))

/-- The value of a signed decimal text, if it fits a signed 64-bit integer. -/
def signedValue (cs : List Char) : Except Cause Int :=
  match cs.filter (· ≠ '_') with
  | '-' :: ds =>
    let v := decimalValue ds
    if Nat.pow 2 63 < v then .error .tooSmall else .ok (-(v : Int))
  | '+' :: ds | ds =>
    let v := decimalValue ds
    if Nat.pow 2 63 ≤ v then .error .tooLarge else .ok v

def radixValue (radix : Nat) (cs : List Char) : Except Cause Int :=
  let v := (cs.filter (· ≠ '_')).foldl (fun acc d => acc * radix + hexValue d) 0
  if Nat.pow 2 63 ≤ v then .error .tooLarge else .ok v

def radixDigits (what pre : String) (isDigitChar : Char → Bool) : Parser (List Char) :=
  reading what do
    literal pre
    consumed (cut (digitRun (oneOf isDigitChar) isDigitChar))

def remaining : Parser (List Char) := takeWhile fun _ => true

def integer : Parser Int := fun c =>
  match c.rest.take 2 with
  | ['0', 'x'] => cut (refine (radixDigits "hexadecimal integer" "0x" isHexDigit) (radixValue 16)) c
  | ['0', 'o'] =>
    cut (refine (radixDigits "octal integer" "0o" fun d => '0' ≤ d && d ≤ '7') (radixValue 8)) c
  | ['0', 'b'] =>
    cut (refine (radixDigits "binary integer" "0b" fun d => d = '0' || d = '1') (radixValue 2)) c
  | _ => within decimalInteger (cut (refine remaining signedValue)) c

def infinityBits : UInt64 := 0x7FF0000000000000

def nanBits : UInt64 := 0x7FF8000000000000

def signBit : UInt64 := 0x8000000000000000

/-- The double nearest to a float text that has digits, possibly a fraction and an exponent. -/
def floatBits (cs : List Char) : UInt64 :=
  let cs := cs.filter (· ≠ '_')
  let (negative, cs) := match cs with
    | '-' :: rest => (true, rest)
    | '+' :: rest => (false, rest)
    | rest => (false, rest)
  let whole := cs.takeWhile Char.isDigit
  let afterWhole := cs.dropWhile Char.isDigit
  let frac := match afterWhole with
    | '.' :: rest => rest.takeWhile Char.isDigit
    | _ => []
  let afterFrac := match afterWhole with
    | '.' :: rest => rest.dropWhile Char.isDigit
    | rest => rest
  let exp : Int := match afterFrac with
    | _ :: '-' :: ds => -(decimalValue ds : Int)
    | _ :: '+' :: ds | _ :: ds => decimalValue ds
    | [] => 0
  let mantissa := decimalValue (whole ++ frac)
  let e := exp - frac.length
  let magnitude : Float :=
    if e < 0 then Float.ofScientific mantissa true e.natAbs
    else Float.ofScientific mantissa false e.toNat
  let bits := magnitude.toBits
  if negative then bits ||| signBit else bits

def zeroPrefixable : Parser Unit := digitRun (oneOf Char.isDigit) Char.isDigit

def exponent : Parser Unit := do
  let _ ← oneOf fun c => c = 'e' || c = 'E'
  let _ ← opt (oneOf isSign)
  cut zeroPrefixable

def fraction : Parser Unit := do
  char '.'
  cut (expecting [.description "digit"] zeroPrefixable)

def specialFloat : Parser UInt64 := do
  let sign ← opt (oneOf isSign)
  let v ← orElse (do literal "inf"; return infinityBits) (do literal "nan"; return nanBits)
  return if sign = some '-' then v ||| signBit else v

/-- A float, as the bits of a double. A float too large for a double is refused, unless it is
negative. -/
def float : Parser UInt64 :=
  reading "floating-point number" <|
    orElse
      (within (consumed do let _ ← decimalInteger; orElse exponent (do fraction; let _ ← opt exponent))
        (cut (verify (do return floatBits (← remaining)) (· ≠ infinityBits))))
      specialFloat

def twoDigits (lo hi : Nat) : Parser Nat :=
  refine (takeBetween 2 2 Char.isDigit) fun ds =>
    let v := decimalValue ds
    if lo ≤ v && v ≤ hi then .ok v else .error .outOfRange

def daysInMonth (year month : Nat) : Nat :=
  if month = 2 then
    if year % 4 = 0 && (year % 100 != 0 || year % 400 = 0) then 29 else 28
  else if month = 4 || month = 6 || month = 9 || month = 11 then 30
  else 31

def fullDate : Parser Unit := do
  let year := decimalValue (← takeBetween 4 4 Char.isDigit)
  char '-'
  let month ← cut (twoDigits 1 12)
  cut (char '-')
  let dayStart ← here
  let day ← cut (twoDigits 1 31)
  if daysInMonth year month < day then failFinalAt dayStart .outOfRange

def partialTime : Parser Unit := do
  let _ ← twoDigits 0 23
  char ':'
  cut do
    let _ ← twoDigits 0 59
    char ':'
    let _ ← twoDigits 0 60
    let _ ← opt (do char '.'; let _ ← takeWhile1 Char.isDigit)

def timeOffset : Parser Unit :=
  reading "time offset" <|
    orElse (do let _ ← oneOf fun c => c = 'Z' || c = 'z')
      (do let _ ← oneOf isSign; cut (do let _ ← twoDigits 0 23; char ':'; let _ ← twoDigits 0 59))

def dateTime : Parser Unit :=
  orElse
    (reading "date-time" do
      fullDate
      let _ ← opt do
        let _ ← oneOf fun c => c = 'T' || c = 't' || c = ' '
        partialTime
        let _ ← opt timeOffset)
    (reading "time" partialTime)

end Quorum.Toml
