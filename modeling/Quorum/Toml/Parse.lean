import Quorum.Toml.Value
import Quorum.Toml.Builder

/-!
# Reading a TOML document

A document is a sequence of lines, each blank, a comment, a header `[a.b]` or `[[a.b]]`, or a
key-value pair, with blanks between the pieces and a comment allowed at the end of each. A
byte order mark may open the text.

The reader commits to a line by its first character, so a failure inside a line is final. A
refusal to place a header or pair in the document stands at the start of its line; for a
header the message adds that a table header was being read.
-/

namespace Quorum.Toml

open Parser

/-- A refusal of a TOML document: its message, and the bytes of the text it points at. -/
structure Error where
  message : String
  /-- The first byte and the byte after the last; none when the refusal points nowhere. -/
  bytes : Option (Nat × Nat)
  deriving Repr

/-- The pieces of a key-value pair: the keys before the last, the last, the value. -/
def pair : Parser (List Key × Key × Node) := do
  let ks ← key
  cut do
    expecting [.char '.', .char '='] (char '=')
    blanks
    let v ← value
    expecting [.char '\n', .char '#'] lineTrailing
    match ks.reverse with
    | last :: path => return (path.reverse, last, v)
    | [] => fail

/-- A header: its keys and the place of the brackets and keys. `double` is for `[[…]]`. -/
def header (double : Bool) : Parser (List Key × Span) := do
  let (ks, span) ← spanned do
    literal (if double then "[[" else "[")
    let ks ← cut key
    expecting [.char '.', if double then .literal "]]" else .char ']']
      (cut (literal (if double then "]]" else "]")))
    return ks
  expecting [.char '\n', .char '#'] (cut lineTrailing)
  return (ks, span)

/-- A failure where a line starts, for a refusal to place it in the document. -/
def placeFailure (start : Nat) (notes : List Note) (cause : Cause) : Failure :=
  { final := true, pos := start, notes := notes, cause := some cause }

/-- Reads the lines of a document from `c` into `b`, at most `fuel` of them. -/
def lines : Nat → Cursor → Builder → Except Failure Builder
  | 0, _, b => .ok b
  | fuel + 1, c, b =>
    let next (r : Except Failure ((Builder × Cursor))) : Except Failure Builder :=
      match r with
      | .ok (b', c') =>
        match blanks c' with
        | .ok ((), c'') => lines fuel c'' b'
        | .error f => .error f
      | .error f => .error f
    match c.rest with
    | [] => .ok b
    | '#' :: _ => next ((fun c' => (b, c')) <$> ((cut (do comment; lineEnding)) c).map (·.2))
    | '\n' :: _ | '\r' :: _ =>
      match newline c with
      | .ok ((), c') => next (.ok (b, c'))
      | .error _ => .error { pos := c.pos }
    | '[' :: _ =>
      let tableHeader : Parser Builder := fun c =>
        let attempt : Except Failure (Builder × Cursor) :=
          match c.rest.take 2 with
          | ['[', '['] =>
            match header true c with
            | .ok ((path, span), c') =>
              match b.openArrayTable path span with
              | .ok b' => .ok (b', c')
              | .error e => .error { pos := c.pos, cause := some e }
            | .error f => .error f
          | [_, _] =>
            match header false c with
            | .ok ((path, span), c') =>
              match b.openTable path span with
              | .ok b' => .ok (b', c')
              | .error e => .error { pos := c.pos, cause := some e }
            | .error f => .error f
          | _ => .error { pos := c.pos }
        attempt
      next ((cut (reading "table header" tableHeader)) c)
    | _ =>
      match (cut pair) c with
      | .ok ((path, k, v), c') =>
        match b.addPair path k v with
        | .ok b' => next (.ok (b', c'))
        | .error e => .error (placeFailure c.pos [] e)
      | .error f => .error f

def byteOffset (chars : List Char) (pos : Nat) : Nat :=
  (chars.take pos).foldl (fun n c => n + c.utf8Size) 0

/-- The bytes that a failure points at: those of the character where it stands, none at the
end. -/
def Failure.bytes (f : Failure) (chars : List Char) : Nat × Nat :=
  let start := byteOffset chars f.pos
  match chars[f.pos]? with
  | some c => (start, start + c.utf8Size)
  | none => (start, start)

def parse (text : String) : Except Error Node :=
  let chars := text.toList
  let start : Cursor :=
    match chars with
    | '\uFEFF' :: rest => ⟨rest, 1⟩
    | _ => ⟨chars, 0⟩
  let start : Cursor := ⟨start.rest.dropWhile isBlank, start.pos + (start.rest.takeWhile isBlank).length⟩
  match lines (chars.length + 1) start {} with
  | .error f => .error ⟨f.message, some (f.bytes chars)⟩
  | .ok b =>
    match b.finish with
    | .ok root => .ok root
    | .error e => .error ⟨e.text, none⟩

end Quorum.Toml
