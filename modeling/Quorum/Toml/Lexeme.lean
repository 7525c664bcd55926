import Quorum.Toml.Cursor

/-!
# Blanks, comments, keys and strings of TOML

The pieces of TOML text below the level of values: blanks (space and tab), line ends (a line
feed, or a carriage return before one), comments, keys, and the four kinds of string.

A key is one or more simple keys joined by dots, each bare (letters, digits, `-`, `_`) or quoted
as a basic or literal string. A basic string knows the escapes `\b \t \n \f \r \" \\`, `\uXXXX`
and `\UXXXXXXXX`; a literal string none. The multi-line forms between three quotes drop a line
end right after the opening quotes, and a basic one also drops a backslash at the end of a line
with all blanks and line ends after it.
-/

namespace Quorum.Toml

open Parser

def isBlank (c : Char) : Bool := c = ' ' || c = '\t'

/-- The characters that may stand in a comment: tab, printable ASCII, and all non-ASCII. -/
def isCommentChar (c : Char) : Bool :=
  c = '\t' || (0x20 ≤ c.toNat && c.toNat ≤ 0x7E) || 0x80 ≤ c.toNat

def isBareKeyChar (c : Char) : Bool :=
  c.isAlphanum || c = '-' || c = '_'

def isBasicChar (c : Char) : Bool :=
  isBlank c || c.toNat = 0x21 || (0x23 ≤ c.toNat && c.toNat ≤ 0x5B) ||
    (0x5D ≤ c.toNat && c.toNat ≤ 0x7E) || 0x80 ≤ c.toNat

def isLiteralChar (c : Char) : Bool :=
  c = '\t' || (0x20 ≤ c.toNat && c.toNat ≤ 0x26) || (0x28 ≤ c.toNat && c.toNat ≤ 0x7E) ||
    0x80 ≤ c.toNat

def isHexDigit (c : Char) : Bool :=
  c.isDigit || ('a' ≤ c && c ≤ 'f') || ('A' ≤ c && c ≤ 'F')

def hexValue (c : Char) : Nat :=
  if c.isDigit then c.toNat - '0'.toNat
  else if 'a' ≤ c && c ≤ 'f' then c.toNat - 'a'.toNat + 10
  else c.toNat - 'A'.toNat + 10

def blanks : Parser Unit := do let _ ← takeWhile isBlank

def comment : Parser Unit := do
  char '#'
  let _ ← takeWhile isCommentChar

def newline : Parser Unit := fun c =>
  match c.rest with
  | '\n' :: rest => .ok ((), ⟨rest, c.pos + 1⟩)
  | '\r' :: '\n' :: rest => .ok ((), ⟨rest, c.pos + 2⟩)
  | _ :: _ => .error { pos := c.pos + 1 }
  | [] => .error { pos := c.pos }

def lineEnding : Parser Unit := orElse newline eof

/-- What may follow a value or header on its line: blanks, a comment, the line end. -/
def lineTrailing : Parser Unit := do
  blanks
  let _ ← opt comment
  lineEnding

def blanksAndNewlines : Parser Unit := do
  let _ ← many (orElse newline (do let _ ← takeWhile1 isBlank))

def blanksCommentsNewlinesFor : Nat → Parser Unit
  | 0 => pure ()
  | fuel + 1 => do
    blanks
    match ← peek with
    | some '#' => comment; lineEnding; blanksCommentsNewlinesFor fuel
    | some '\n' | some '\r' => newline; blanksCommentsNewlinesFor fuel
    | _ => pure ()

def blanksCommentsNewlines : Parser Unit := fun c =>
  blanksCommentsNewlinesFor (c.rest.length + 1) c

/-- The character that an escape sequence of `digits` hexadecimal digits stands for. -/
def hexEscape (digits : Nat) : Parser Char :=
  refine (verify (takeBetween 0 digits isHexDigit) (·.length = digits)) fun ds =>
    let v := ds.foldl (fun acc d => acc * 16 + hexValue d) 0
    if v < 0xD800 || (0xDFFF < v && v < 0x110000) then .ok (Char.ofNat v) else .error .outOfRange

def escapeTail : Parser Char := do
  match ← any with
  | 'b' => pure '\x08'
  | 'f' => pure '\x0c'
  | 'n' => pure '\n'
  | 'r' => pure '\r'
  | 't' => pure '\t'
  | '\\' => pure '\\'
  | '"' => pure '"'
  | 'u' => cut (reading "unicode 4-digit hex code" (hexEscape 4))
  | 'U' => cut (reading "unicode 8-digit hex code" (hexEscape 8))
  | _ =>
    expecting [.char 'b', .char 'f', .char 'n', .char 'r', .char 't', .char 'u', .char 'U',
      .char '\\', .char '"'] (reading "escape sequence" (cut fail))

def escaped : Parser Char := do
  char '\\'
  escapeTail

def basicChunk : Parser String :=
  orElse (do return String.ofList (← takeWhile1 isBasicChar)) (do return (← escaped).toString)

def basicString : Parser String := do
  char '"'
  let chunks ← many basicChunk
  reading "basic string" (cut (char '"'))
  return String.join chunks

def literalString : Parser String :=
  reading "literal string" do
    char '\''
    let cs ← cut (takeWhile isLiteralChar)
    cut (char '\'')
    return String.ofList cs

def closingQuotes (quote : Char) (term : Parser Unit) : Parser String :=
  orElse
    (do char quote; char quote; lookahead term; return String.ofList [quote, quote])
    (do char quote; lookahead term; return quote.toString)

def noneOf (quote : Char) : Parser Unit := do let _ ← oneOf (· ≠ quote)

def multiBasicChunk : Parser String :=
  orElse (do return String.ofList (← takeWhile1 isBasicChar)) <|
  orElse (do let _ ← many1 (do char '\\'; blanks; newline; blanksAndNewlines); return "") <|
  orElse (do return (← escaped).toString) <|
  (do newline; return "\n")

/-- Quotes inside a multi-line basic string followed by more text, repeated. -/
def multiBasicQuoted : Nat → String → Parser String
  | 0, acc => pure acc
  | fuel + 1, acc => do
    match ← opt (closingQuotes '"' (noneOf '"')) with
    | none => pure acc
    | some q =>
      match ← opt multiBasicChunk with
      | none => pure acc
      | some chunk =>
        let more ← many multiBasicChunk
        multiBasicQuoted fuel (acc ++ q ++ chunk ++ String.join more)

def multiBasicBody : Parser String := fun c => (do
  let first ← many multiBasicChunk
  let body ← multiBasicQuoted (c.rest.length + 1) (String.join first)
  match ← opt (closingQuotes '"' (literal "\"\"\"")) with
  | some q => return body ++ q
  | none => return body) c

def multiBasicString : Parser String :=
  reading "multiline basic string" do
    literal "\"\"\""
    let _ ← opt newline
    let body ← cut multiBasicBody
    cut (literal "\"\"\"")
    return body

def multiLiteralChunk : Parser Unit :=
  orElse (do let _ ← oneOf isLiteralChar) newline

def dropCarriageReturns : List Char → List Char
  | '\r' :: '\n' :: rest => '\n' :: dropCarriageReturns rest
  | c :: rest => c :: dropCarriageReturns rest
  | [] => []

def multiLiteralString : Parser String :=
  reading "multiline literal string" do
    literal "'''"
    let _ ← opt newline
    let body ← cut (consumed do
      let _ ← many multiLiteralChunk
      let _ ← many (do let _ ← closingQuotes '\'' (noneOf '\''); let _ ← many1 multiLiteralChunk)
      let _ ← opt (closingQuotes '\'' (literal "'''")))
    cut (literal "'''")
    return String.ofList (dropCarriageReturns body)

def string : Parser String :=
  orElse multiBasicString (orElse basicString (orElse multiLiteralString literalString))

def simpleKey : Parser Key := do
  let (name, span) ← spanned do
    match ← peek with
    | some '"' => basicString
    | some '\'' => literalString
    | some _ => return String.ofList (← takeWhile1 isBareKeyChar)
    | none => fail
  return ⟨name, span⟩

def keyDepthLimit : Nat := 80

def key : Parser (List Key) :=
  refine (reading "key" (sepBy1 (do blanks; let k ← simpleKey; blanks; return k) (char '.')))
    fun ks => if keyDepthLimit ≤ ks.length then .error .recursionLimit else .ok ks

end Quorum.Toml
