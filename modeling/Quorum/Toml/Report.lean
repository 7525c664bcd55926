import Quorum.Toml.Parse

/-!
# Showing where a TOML document was refused

A refusal that points into the text is shown with its line: the line and column where it
starts, the line itself behind its number, and carets under the bytes it points at, cut at the
end of the line and at least one; then the message.

    TOML parse error at line 1, column 7
      |
    1 | [store
      |       ^
    invalid table header
    expected `.`, `]`

Columns count characters from 1; when the refusal starts inside a character that takes more than
one byte, the column counts bytes instead. A refusal at the very end counts one column past the
last character.
-/

namespace Quorum.Toml

def isContinuationByte (b : UInt8) : Bool := 0x80 ≤ b.toNat && b.toNat < 0xC0

def linePosition (bytes : List UInt8) (index : Nat) : Nat × Nat :=
  if bytes.isEmpty then (0, index)
  else
    let safe := min index (bytes.length - 1)
    let past := index - safe
    let before := bytes.take safe
    -- the line starts after the last line feed before the offset
    let lineStart := match (before.reverse.findIdx? (· = 10)) with
      | some back => safe - back
      | none => 0
    let line := (bytes.take lineStart).count 10
    let upTo := (bytes.drop lineStart).take (safe - lineStart + 1)
    let whole := bytes.length ≤ safe + 1 || !(isContinuationByte (bytes.getD (safe + 1) 0))
    let column := if whole then upTo.countP (! isContinuationByte ·) - 1 else safe - lineStart
    (line, column + past)

def Error.render (e : Error) (source : String) : String :=
  match e.bytes with
  | none => e.message ++ "\n"
  | some (start, stop) =>
    let (line, column) := linePosition source.toUTF8.toList start
    let number := toString (line + 1)
    let gutter := String.ofList (List.replicate (number.length + 1) ' ')
    let content := (source.splitOn "\n").getD line ""
    let highlight := min (stop - start) (content.utf8ByteSize - column)
    "TOML parse error at line " ++ number ++ ", column " ++ toString (column + 1) ++ "\n" ++
      gutter ++ "|\n" ++
      number ++ " | " ++ content ++ "\n" ++
      gutter ++ "|" ++ String.ofList (List.replicate (column + 1) ' ') ++
      String.ofList (List.replicate (max highlight 1) '^') ++ "\n" ++
      e.message ++ "\n"

end Quorum.Toml
