import Quorum.Host.Call
import Quorum.Numeral
import Quorum.Text.Utf8

/-!
# A stand-in chain node

A program that stands in for a chain's command line client in rehearsals. It tells the kind of a
call by its first two arguments and answers with the output set for that kind in its
environment, else with the output set for every kind, else by echoing its arguments after
`ran:`. Every run is recorded, with each argument that names a scratch file replaced by the
file's name and its bytes.

Its environment holds, for a kind `K` such as `SIGN`, the variables `FAKE_K_STDOUT`,
`FAKE_K_STDERR` and `FAKE_K_EXIT`, and the same without the kind; `FAKE_SLEEP` makes it wait that
many seconds before answering. Both numbers are read the way its shell script reads them: the
value is split into words at blanks, an exit status is the first word as a 64-bit decimal taken
modulo 256 (2 when it is no such number), and a wait is the sum of its words, each a decimal or
hexadecimal fraction with an optional exponent and an optional unit `s`, `m`, `h` or `d`.

Its log is a text: each run appends each argument after a unit separator `\x1f` and then a record
separator `\x1e`. Read back, the log splits at record separators into runs, skipping empty ones,
and each run at unit separators into arguments, dropping what comes before the first; so an
argument holding a separator reads back split.
-/

namespace Quorum

namespace StandIn

def kind : List String → String
  | "tx" :: "sign" :: _ => "SIGN"
  | "tx" :: "multisign" :: _ => "MULTISIGN"
  | "tx" :: "broadcast" :: _ => "BROADCAST"
  | "query" :: "bank" :: _ => "BALANCES"
  | "query" :: "--node" :: _ => "ACCOUNT"
  | "tx" :: _ => "GENERATE"
  | _ => "OTHER"

def baseName (path : String) : String :=
  ((path.splitOn "/").getLast?).getD path

def occurs (s part : String) : Bool :=
  (s.splitOn part).length > 1

/-- The bytes of the scratch file that an argument names, if it names one. -/
def scratchBytes (fileAt : String → Option ByteArray) (arg : String) : Option ByteArray :=
  if occurs arg "/cosign-" then fileAt arg else none

def logged (fileAt : String → Option ByteArray) (arg : String) : String :=
  match scratchBytes fileAt arg with
  | some d => "@" ++ baseName arg ++ "=" ++ Text.decodeLossy d
  | none => arg

def echoed (fileAt : String → Option ByteArray) (arg : String) : String :=
  match scratchBytes fileAt arg with
  | some _ => "@" ++ baseName arg
  | none => arg

/-- Whether a character separates the words of an unquoted shell expansion. -/
def isFieldBlank (c : Char) : Bool :=
  c = ' ' || c = '\t' || c = '\n'

def words (s : String) : List String :=
  let (cur, ws) := s.toList.foldr (fun c (cur, ws) =>
    if isFieldBlank c then ([], if cur.isEmpty then ws else String.ofList cur :: ws)
    else (c :: cur, ws)) ([], [])
  if cur.isEmpty then ws else String.ofList cur :: ws

/-- Whether a character is white space to the C library: blank, line feed, vertical tab, form
feed or carriage return. -/
def isCSpace (c : Char) : Bool :=
  c = ' ' || c = '\t' || c = '\n' || c = '\x0b' || c = '\x0c' || c = '\r'

/-- The status that the shell's `exit` gives for a word: leading white space, an optional sign
and decimal digits of a signed 64-bit number, then only blanks; the number modulo 256. Any other
word is a misuse, status 2. -/
def exitStatus (word : String) : Nat :=
  let cs := word.toList.dropWhile isCSpace
  let (negative, cs) := match cs with
    | '-' :: rest => (true, rest)
    | '+' :: rest => (false, rest)
    | _ => (false, cs)
  let digits := cs.takeWhile Char.isDigit
  let rest := cs.dropWhile Char.isDigit
  let magnitude := Numeral.digitsValue digits
  let fits := if negative then magnitude ≤ Nat.pow 2 63 else magnitude < Nat.pow 2 63
  if digits.isEmpty || !fits || !rest.all (fun c => c = ' ' || c = '\t') then 2
  else
    let value : Int := if negative then -(magnitude : Int) else magnitude
    (value % 256).toNat

/-- The status of a run whose exit variable holds `text`: its first word, or 0 without one. -/
def statusOf (text : String) : Nat :=
  match words text with
  | w :: _ => exitStatus w
  | [] => 0

def hexDigit (c : Char) : Nat :=
  if c.isDigit then c.toNat - '0'.toNat
  else if 'a' ≤ c && c ≤ 'f' then c.toNat - 'a'.toNat + 10
  else c.toNat - 'A'.toNat + 10

def isHexDigit (c : Char) : Bool :=
  c.isDigit || ('a' ≤ c && c ≤ 'f') || ('A' ≤ c && c ≤ 'F')

/-- The largest power exponent worked out exactly; a span beyond it outlasts any time limit. -/
def exponentCap : Nat := 400

/-- A signed exponent after its letter: an optional sign and decimal digits, held within the
cap; nothing, with the characters as they were, when no digit follows. -/
def readExponent (cs : List Char) : Option (Int × List Char) :=
  let (negative, rest) := match cs with
    | '-' :: r => (true, r)
    | '+' :: r => (false, r)
    | r => (false, r)
  let digits := rest.takeWhile Char.isDigit
  if digits.isEmpty then none
  else
    let value := min (Numeral.digitsValue digits) exponentCap
    some (if negative then -(value : Int) else value, rest.dropWhile Char.isDigit)

/-- `m * base ^ e` nanoseconds' worth of seconds, rounded down: `m * 10^9 * base ^ e`. -/
def scaledNanos (m base : Nat) (e : Int) : Nat :=
  if 0 ≤ e then m * 1000000000 * Nat.pow base e.toNat
  else m * 1000000000 / Nat.pow base (-e).toNat

/-- A number as the C library reads a fraction from the start of a text, if it starts with one,
in nanoseconds rounded down or endless, with the text after it. -/
def readFraction (cs : List Char) : Option (Option Nat × List Char) :=
  let lower := cs.map Char.toLower
  if lower.take 8 = "infinity".toList then some (none, cs.drop 8)
  else if lower.take 3 = "inf".toList then some (none, cs.drop 3)
  else
    match cs with
    | '0' :: x :: rest =>
      if (x = 'x' || x = 'X') && (rest.head?.any isHexDigit ||
          (rest.head? = some '.' && (rest.drop 1).head?.any isHexDigit)) then
        let whole := rest.takeWhile isHexDigit
        let afterWhole := rest.dropWhile isHexDigit
        let (frac, afterFrac) := match afterWhole with
          | '.' :: r => (r.takeWhile isHexDigit, r.dropWhile isHexDigit)
          | r => ([], r)
        let m := (whole ++ frac).foldl (fun acc c => acc * 16 + hexDigit c) 0
        let (p, after) := match afterFrac with
          | c :: r => if c = 'p' || c = 'P' then (readExponent r).getD (0, afterFrac) else (0, afterFrac)
          | [] => (0, [])
        some (some (scaledNanos m 2 (p - 4 * frac.length)), after)
      else decimal cs
    | _ => decimal cs
where
  decimal (cs : List Char) : Option (Option Nat × List Char) :=
    let whole := cs.takeWhile Char.isDigit
    let afterWhole := cs.dropWhile Char.isDigit
    let (frac, afterFrac) := match afterWhole with
      | '.' :: r => (r.takeWhile Char.isDigit, r.dropWhile Char.isDigit)
      | r => ([], r)
    if whole.isEmpty && frac.isEmpty then none
    else
      let m := Numeral.digitsValue (whole ++ frac)
      let (e, after) := match afterFrac with
        | c :: r => if c = 'e' || c = 'E' then (readExponent r).getD (0, afterFrac) else (0, afterFrac)
        | [] => (0, [])
      some (some (scaledNanos m 10 (e - frac.length)), after)

/-- One word of a wait: white space, an optional sign, a fraction and at most one unit letter;
nothing if the word is no such span or is negative. -/
def waitWord (word : String) : Option (Option Nat) :=
  let cs := word.toList.dropWhile isCSpace
  let (negative, cs) := match cs with
    | '-' :: rest => (true, rest)
    | '+' :: rest => (false, rest)
    | _ => (false, cs)
  match readFraction cs with
  | none => none
  | some (span, rest) =>
    let factor := match rest with
      | [] | ['s'] => some 1
      | ['m'] => some 60
      | ['h'] => some 3600
      | ['d'] => some 86400
      | _ => none
    match factor with
    | none => none
    | some f =>
      if negative && span != some 0 then none else some (span.map (· * f))

/-- How long a run waits for the wait variable `text`: the sum of its words, endless if one of
them is; no wait when a word is not a span, as the wait then fails at once. -/
def waitOf (text : String) : Option Duration :=
  let spans := (words text).map waitWord
  if spans.any Option.isNone then some ⟨0⟩
  else if spans.any (· == some none) then none
  else some ⟨spans.foldl (fun acc s => acc + (s.join.getD 0)) 0⟩

def logEntry (args : List String) : String :=
  String.join (args.map ("\x1f" ++ ·)) ++ "\x1e"

def runsOfLog (log : String) : List (List String) :=
  ((log.splitOn "\x1e").filter (!·.isEmpty)).map fun run => (run.splitOn "\x1f").drop 1

/-- The output set by the variables with prefix `pre`, if its standard output is set. -/
def configured (env : String → Option String) (pre : String) : Option Finished :=
  (env (pre ++ "STDOUT")).map fun out =>
    { status := statusOf ((env (pre ++ "EXIT")).getD "0"),
      stdout := out.toUTF8, stderr := ((env (pre ++ "STDERR")).getD "").toUTF8 }

/-- What a run with `args` does within `timeout`, and the text it appends to its log. -/
def respond (env : String → Option String) (fileAt : String → Option ByteArray)
    (args : List String) (timeout : Duration) : RunResult × String :=
  let record := logEntry (args.map (logged fileAt))
  let outlasts : Bool := match waitOf ((env "FAKE_SLEEP").getD "0") with
    | some wait => decide (wait.nanos ≥ timeout.nanos)
    | none => true
  if outlasts then (.timedOut, record)
  else
    let echo : Finished :=
      { status := 0, stdout := ("ran:" ++ String.join (args.map (" " ++ echoed fileAt ·))).toUTF8,
        stderr := ByteArray.empty }
    let out := (configured env ("FAKE_" ++ kind args ++ "_")).getD
      ((configured env "FAKE_").getD echo)
    (.finished out, record)

end StandIn

end Quorum
