import Quorum.Text.Printable

/-!
# Quoted literals

How a message shows a piece of text: between double quotes, with the characters that could be
mistaken for something else written as escapes. The backslash and the double quote are escaped by
a backslash, NUL, tab, carriage return and line feed by their letter escapes, and a character that
is not printable or that extends a grapheme by `\u{hex}` with lowercase digits. Everything else,
the apostrophe included, stands for itself.

A character is shown the same way between apostrophes, with the apostrophe escaped in place of
the double quote. A list of texts is shown as `["a", "b"]`.
-/

namespace Quorum.Text

def hexDigits (n : Nat) : String :=
  String.ofList (Nat.toDigits 16 n)

def escapeChar (c : Char) : String :=
  if c = '\x00' then "\\0"
  else if c = '\t' then "\\t"
  else if c = '\r' then "\\r"
  else if c = '\n' then "\\n"
  else if c = '\\' then "\\\\"
  else if c = '"' then "\\\""
  else if isGraphemeExtend c || !isPrintable c then "\\u\x7b" ++ hexDigits c.toNat ++ "\x7d"
  else c.toString

def quote (s : String) : String :=
  "\"" ++ String.join (s.toList.map escapeChar) ++ "\""

/-- A character as a quoted literal between apostrophes, where the apostrophe is escaped and
the double quote is not. -/
def quoteChar (c : Char) : String :=
  "'" ++ (if c = '\'' then "\\'" else if c = '"' then "\"" else escapeChar c) ++ "'"

/-- A list of texts as a bracketed, comma separated list of quoted literals. -/
def quoteList (xs : List String) : String :=
  "[" ++ ", ".intercalate (xs.map quote) ++ "]"

end Quorum.Text
