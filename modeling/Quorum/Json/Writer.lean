/-!
# Writing JSON text

JSON strings are written between double quotes. The quote and the backslash are escaped by a
backslash; backspace, form feed, line feed, carriage return and tab by their letter escapes; the
other control characters below U+0020 as `\u00XX` with lowercase hexadecimal digits. Every other
character, DEL and non-ASCII included, is written as it is.
-/

namespace Quorum.Json

def escapeChar (c : Char) : String :=
  if c = '"' then "\\\""
  else if c = '\\' then "\\\\"
  else if c = '\x08' then "\\b"
  else if c = '\x0c' then "\\f"
  else if c = '\n' then "\\n"
  else if c = '\r' then "\\r"
  else if c = '\t' then "\\t"
  else if c.toNat < 0x20 then
    let hex := "0123456789abcdef".toList
    "\\u00" ++ (hex.getD (c.toNat / 16) '0').toString ++ (hex.getD (c.toNat % 16) '0').toString
  else c.toString

def quote (s : String) : String :=
  "\"" ++ String.join (s.toList.map escapeChar) ++ "\""

/-- A JSON object of members already written as JSON text, in the given order. -/
def objectText (members : List (String × String)) : String :=
  "\x7b" ++ ",".intercalate (members.map (fun (k, v) => quote k ++ ":" ++ v)) ++ "\x7d"

end Quorum.Json
