/-!
# Writing TOML strings

A string is written in the first of these forms that holds it without escapes, or else with
escapes:
1. between double quotes, for a text with no backslash, double quote or line break;
2. literally between apostrophes, for a text with no apostrophe or line break;
3. between three double quotes, for a text with no backslash and at most two double quotes in
   a row;
4. literally between three apostrophes, for a text with at most two apostrophes in a row;
5. with escapes, between three double quotes when the text has a line feed, else between
   double quotes.

No form but the last holds a control character other than tab and line feed, or DEL. A text with
a line feed written between triple delimiters starts with a line feed after them, which a reader
drops. Escapes are the short ones for backspace, tab, form feed, carriage return, quote and
backslash, and `\uXXXX` with uppercase digits for other control characters and DEL; between
three double quotes a line feed stands for itself, and so do double quotes up to two in a row.
-/

namespace Quorum.Toml

/-- The features of a text that decide how it is written. -/
structure StringFeatures where
  apostrophes : Nat
  quotes : Nat
  /-- Whether it holds a control character other than tab and line feed, or DEL. -/
  controls : Bool
  backslash : Bool
  lineFeed : Bool
  deriving DecidableEq, Repr

/-- How a string is delimited. -/
inductive StringForm where
  | basic
  | literal
  | multiBasic
  | multiLiteral
  deriving DecidableEq, Repr

/-- Whether a character needs an escape code in any string: a control character other than tab
and line feed, or DEL. -/
def isControl (c : Char) : Bool :=
  (c.toNat ≤ 0x1F && c ≠ '\t' && c ≠ '\n') || c.toNat = 0x7F

def longestRun (x : Char) (cs : List Char) : Nat :=
  (cs.foldl (fun (best, run) c => if c = x then (max best (run + 1), run + 1) else (best, 0))
    (0, 0)).1

def StringFeatures.of (s : String) : StringFeatures :=
  let cs := s.toList
  { apostrophes := longestRun '\'' cs, quotes := longestRun '"' cs, controls := cs.any isControl,
    backslash := cs.contains '\\', lineFeed := cs.contains '\n' }

def StringFeatures.form (f : StringFeatures) : StringForm :=
  if !f.controls && !f.backslash && f.quotes = 0 && !f.lineFeed then .basic
  else if !f.controls && f.apostrophes = 0 && !f.lineFeed then .literal
  else if !f.controls && !f.backslash && f.quotes ≤ 2 then .multiBasic
  else if !f.controls && f.apostrophes ≤ 2 then .multiLiteral
  else if f.lineFeed then .multiBasic
  else .basic

def hex4 (n : Nat) : String :=
  let digits := "0123456789ABCDEF".toList
  String.ofList ([n / 4096 % 16, n / 256 % 16, n / 16 % 16, n % 16].map (digits.getD · '0'))

/-- The text standing for a character other than a double quote in a string with escapes;
`multi` tells whether the string spans lines. -/
def escapeChar (multi : Bool) (c : Char) : String :=
  if c = '\x08' then "\\b"
  else if c = '\t' then "\\t"
  else if c = '\n' then (if multi then "\n" else "\\n")
  else if c = '\x0c' then "\\f"
  else if c = '\r' then "\\r"
  else if c = '\\' then "\\\\"
  else if c.toNat ≤ 0x1F || c.toNat = 0x7F then "\\u" ++ hex4 c.toNat
  else c.toString

/-- The body of a string with escapes, where double quotes stand for themselves up to `allowed`
in a row, `run` of them just written. -/
def escapeBody (multi : Bool) (allowed : Nat) : Nat → List Char → String
  | _, [] => ""
  | run, c :: cs =>
    if c = '"' then
      if run < allowed then "\"" ++ escapeBody multi allowed (run + 1) cs
      else "\\\"" ++ escapeBody multi allowed 0 cs
    else escapeChar multi c ++ escapeBody multi allowed 0 cs

def writeString (s : String) : String :=
  let f := StringFeatures.of s
  let opening := if f.lineFeed then "\n" else ""
  match f.form with
  | .basic => "\"" ++ escapeBody false 0 0 s.toList ++ "\""
  | .literal => "'" ++ s ++ "'"
  | .multiBasic => "\"\"\"" ++ opening ++ escapeBody true 2 0 s.toList ++ "\"\"\""
  | .multiLiteral => "'''" ++ opening ++ s ++ "'''"

def writePair (key value : String) : String :=
  key ++ " = " ++ value ++ "\n"

end Quorum.Toml
