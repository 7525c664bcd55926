import Quorum.Config.Layers
import Quorum.Program
import Quorum.Toml.Number
import Quorum.Text.Blank
import Quorum.Text.Quoted

/-!
# Settings from the environment

The environment variables whose names start with `COSIGN_`, in any case, are the upper layer of
the settings. The rest of a name, blanks trimmed at both ends and `__` standing for a dot, names
the setting it sets by the keys on its path, split at the dots and in lower case. A name with an
empty key is ignored.

A value is read by a small grammar, ASCII blanks allowed around each part:
* `true` and `false` are flags;
* `{k = v, ...}` is a table, each key a word of letters, digits, `_` and `-`, or quoted;
* `[v, ...]` is a list;
* `"..."` is a text, with the escapes of a TOML basic string, of which more below;
* `'c'` is the text of the one character `c`;
* anything else, up to a comma or a bracket and trimmed of blanks, is a decimal fraction if it
  has a point and reads as one, else an unsigned number below 2^64, else a signed one from
  -2^63, else the text itself.
A value that this grammar does not read to its end is the whole text as it stands.

A quoted text with an escape keeps of what stands before its first backslash only as many bytes
as there are characters there: all of it when they are ASCII, less when they are not. When that
cut falls inside a character, reading the value is a defect that stops the program.

The variables are laid over each other in the order of the environment, a later one winning,
and then over the file: a table over a table merges key by key and takes the upper table's
layer; any other value replaces what it lies over.
-/

namespace Quorum.Setting

/-- Whether a character is an ASCII blank: space, tab, line feed, form feed or carriage
return. -/
def isAsciiBlank (c : Char) : Bool :=
  c = ' ' || c = '\t' || c = '\n' || c = '\x0c' || c = '\r'

def isSeparator (c : Char) : Bool :=
  c = ',' || c = '{' || c = '}' || c = '[' || c = ']'

def isKeyChar (c : Char) : Bool :=
  c.isAlphanum || c = '_' || c = '-'

def isDigits (s : String) : Bool :=
  !s.isEmpty && s.all Char.isDigit

/-- Whether characters are an exponent: `e` or `E`, an optional sign and digits. -/
def isExponent : List Char → Bool
  | c :: rest =>
    (c = 'e' || c = 'E') &&
      let ds := match rest with
        | '+' :: ds | '-' :: ds => ds
        | ds => ds
      !ds.isEmpty && ds.all Char.isDigit
  | [] => false

/-- Whether a text is a decimal fraction: an optional sign, digits with a point among them, and
an optional exponent. -/
def isFraction (s : String) : Bool :=
  let cs := match s.toList with
    | '+' :: cs | '-' :: cs => cs
    | cs => cs
  let whole := cs.takeWhile Char.isDigit
  match cs.dropWhile Char.isDigit with
  | '.' :: rest =>
    let frac := rest.takeWhile Char.isDigit
    let after := rest.dropWhile Char.isDigit
    !(whole ++ frac).isEmpty && (after.isEmpty || isExponent after)
  | _ => false

/-- The value of a bare word: a decimal fraction, an unsigned number below 2^64 (a plus sign
allowed), a signed number from -2^63, or else the word as text. -/
def ofWord (s : String) : Setting :=
  let l := some Layer.env
  let body := if s.startsWith "+" then (s.drop 1).toString else s
  if isFraction s then .float (Toml.floatBits s.toList) l
  else if isDigits body && body.toNat! < Nat.pow 2 64 then .unsigned body.toNat! l
  else if s.startsWith "-" && isDigits (s.drop 1).toString &&
      (s.drop 1).toString.toNat! ≤ Nat.pow 2 63 then
    .signed (-((s.drop 1).toString.toNat! : Int)) l
  else .text s l

/-- The characters of a quoted text up to its closing quote, each backslash with the character
after it, and what follows the closing quote; nothing if the quote is never closed. -/
def quotedBody : List Char → Option (List Char × List Char)
  | [] => none
  | '"' :: rest => some ([], rest)
  | '\\' :: c :: rest => (quotedBody rest).map fun (body, r) => ('\\' :: c :: body, r)
  | ['\\'] => none
  | c :: rest => (quotedBody rest).map fun (body, r) => (c :: body, r)

/-- The value of hexadecimal digits, if they all are ASCII hexadecimal digits. -/
def hexValue (cs : List Char) : Option Nat :=
  cs.foldlM (fun acc c =>
    if c.isDigit then some (acc * 16 + (c.toNat - '0'.toNat))
    else if 'a' ≤ c && c ≤ 'f' then some (acc * 16 + (c.toNat - 'a'.toNat + 10))
    else if 'A' ≤ c && c ≤ 'F' then some (acc * 16 + (c.toNat - 'A'.toNat + 10))
    else none) 0

/-- The character of a short escape: the letter or sign after a backslash. -/
def shortEscape : Char → Option Char
  | '"' => some '"'
  | '\\' => some '\\'
  | 'b' => some '\x08'
  | 'f' => some '\x0c'
  | 'n' => some '\n'
  | 'r' => some '\r'
  | 't' => some '\t'
  | _ => none

/-- Why a value was not read: the grammar does not hold its text, or reading it is a defect. -/
inductive Unread where
  | mismatch
  | defect (d : Defect)

def orMismatch {α : Type} : Option α → Except Unread α
  | some a => .ok a
  | none => .error .mismatch

/-- Whether a character may stand for itself in a quoted text: tab, or any character from the
space on but DEL. -/
def isTextChar (c : Char) : Bool :=
  c = '\t' || (0x20 ≤ c.toNat && c.toNat ≠ 0x7F)

/-- The escapes of a text replaced, the other characters kept; nothing if an escape is unknown
or names no character, or if a character stands in it that may not stand for itself. -/
def unescape (cs : List Char) : Option (List Char) :=
  match cs with
  | [] => some []
  | '\\' :: c :: rest =>
    match shortEscape c with
    | some x => (unescape rest).map (x :: ·)
    | none =>
      if c = 'u' || c = 'U' then
        let len := if c = 'u' then 4 else 8
        if rest.length < len then none
        else
          match hexValue (rest.take len) with
          | some n =>
            if n < 0xD800 || (0xE000 ≤ n && n ≤ 0x10FFFF) then
              (unescape (rest.drop len)).map (Char.ofNat n :: ·)
            else none
          | none => none
      else none
  | ['\\'] => none
  | c :: rest => if isTextChar c then (unescape rest).map (c :: ·) else none
termination_by cs.length
decreasing_by all_goals simp only [List.length_cons, List.length_drop]; omega

/-- The characters that make up the first `n` bytes of the UTF-8 text of `cs`, `start` bytes
standing before `cs`; when byte `n` falls inside a character, that character and the byte it
starts at. -/
def bytePrefix (start : Nat) : Nat → List Char → Except (Nat × Char) (List Char)
  | 0, _ => .ok []
  | _ + 1, [] => .ok []
  | n + 1, c :: cs =>
    if c.utf8Size ≤ n + 1 then
      (bytePrefix (start + c.utf8Size) (n + 1 - c.utf8Size) cs).map (c :: ·)
    else .error (start, c)

/-- The longest start of `cs` whose UTF-8 text takes at most `limit` bytes. -/
def fitBytes : Nat → List Char → List Char
  | _, [] => []
  | limit, c :: cs => if c.utf8Size ≤ limit then c :: fitBytes (limit - c.utf8Size) cs else []

/-- The message of the defect of cutting the text `cs` at byte `i`, which falls inside the
character `c` starting at byte `start`. The text is shown up to its first 256 bytes, a cut-off
tail marked by `[...]`. -/
def cutMessage (cs : List Char) (i start : Nat) (c : Char) : String :=
  let shown := fitBytes 256 cs
  "byte index " ++ toString i ++ " is not a char boundary; it is inside " ++
    Text.quoteChar c ++ " (bytes " ++ toString start ++ ".." ++ toString (start + c.utf8Size) ++
    ") of `" ++ String.ofList shown ++ "`" ++ (if shown.length < cs.length then "[...]" else "")

/-- The text of the body of a quoted text. Each character before the first backslash must stand
for itself; if there is a backslash, as many bytes of them are kept as there are such
characters, a defect if that cut falls inside a character, and the rest from the backslash on has
its escapes replaced. -/
def unescapeBody (body : List Char) : Except Unread (List Char) :=
  let before := body.takeWhile (· ≠ '\\')
  if !before.all isTextChar then .error .mismatch
  else
    match body.dropWhile (· ≠ '\\') with
    | [] => .ok before
    | rest =>
      match bytePrefix 0 before.length before with
      | .error (start, c) => .error (.defect ⟨cutMessage body before.length start c⟩)
      | .ok kept => (orMismatch (unescape rest)).map (kept ++ ·)

def parseQuoted (cs : List Char) : Except Unread (String × List Char) := do
  let (body, rest) ← orMismatch (quotedBody cs)
  let chars ← unescapeBody body
  return (String.ofList chars, rest)

/-- A key of a table and what follows it: a quoted text, or a word of key characters. -/
def parseKey (cs : List Char) : Except Unread (String × List Char) :=
  match cs with
  | '"' :: rest => parseQuoted rest
  | _ =>
    let word := cs.takeWhile isKeyChar
    if word.isEmpty then .error .mismatch else .ok (String.ofList word, cs.dropWhile isKeyChar)

/-- A bare word, up to a separator, as a value; the blanks after it are part of it. -/
def parseWord (cs : List Char) : Setting × List Char :=
  (ofWord (Text.trimBlank (String.ofList (cs.takeWhile (!isSeparator ·)))),
    cs.dropWhile (!isSeparator ·))

mutual

/-- A value and what follows it, the blanks around it skipped; `fuel` bounds the depth. -/
def parseValue : Nat → List Char → Except Unread (Setting × List Char)
  | 0, _ => .error .mismatch
  | fuel + 1, cs =>
    let l := some Layer.env
    let skip := fun (rest : List Char) => rest.dropWhile isAsciiBlank
    match cs.dropWhile isAsciiBlank with
    | 't' :: 'r' :: 'u' :: 'e' :: rest => .ok (.bool true l, skip rest)
    | 'f' :: 'a' :: 'l' :: 's' :: 'e' :: rest => .ok (.bool false l, skip rest)
    | '{' :: rest => do
      let (entries, rest) ← parseEntries fuel [] rest
      return (.table entries l, skip rest)
    | '[' :: rest => do
      let (items, rest) ← parseItems fuel rest
      return (.list items l, skip rest)
    | '"' :: rest => do
      let (s, rest) ← parseQuoted rest
      return (.text s l, skip rest)
    | '\'' :: c :: '\'' :: rest => .ok (.text c.toString l, skip rest)
    | '\'' :: _ => .error .mismatch
    | other =>
      let (v, rest) := parseWord other
      .ok (v, match v with
        | .float .. => rest
        | _ => skip rest)

/-- The entries of a table up to its closing brace, the opening one already read, added to
`acc`; a later entry of a key replaces an earlier one. -/
def parseEntries : Nat → List (String × Setting) → List Char →
    Except Unread (List (String × Setting) × List Char)
  | 0, _, _ => .error .mismatch
  | fuel + 1, acc, cs =>
    match cs with
    | '}' :: rest => .ok (acc, rest)
    | _ => do
      let (key, rest) ← parseKey (cs.dropWhile isAsciiBlank)
      let rest ← match rest.dropWhile isAsciiBlank with
        | '=' :: rest => pure rest
        | _ => throw .mismatch
      let (v, rest) ← parseValue fuel (rest.dropWhile isAsciiBlank)
      let acc := put acc key v
      match rest.dropWhile isAsciiBlank with
      | ',' :: rest => parseEntries fuel acc rest
      | '}' :: rest => pure (acc, rest)
      | _ => throw .mismatch

/-- The items of a list up to its closing bracket, the opening one already read. -/
def parseItems : Nat → List Char → Except Unread (List Setting × List Char)
  | 0, _ => .error .mismatch
  | fuel + 1, cs =>
    match cs with
    | ']' :: rest => .ok ([], rest)
    | _ => do
      let (v, rest) ← parseValue fuel cs
      match rest with
      | ',' :: rest =>
        let (vs, rest) ← parseItems fuel rest
        return (v :: vs, rest)
      | ']' :: rest => pure ([v], rest)
      | _ => throw .mismatch

end

/-- The value of an environment variable: what the grammar reads when it reads the whole text,
else the text as it stands; a defect if reading it is one. -/
def ofVariable (raw : String) : Except Defect Setting :=
  let cs := raw.toList
  match parseValue (2 * cs.length + 2) cs with
  | .ok (v, []) => .ok v
  | .error (.defect d) => .error d
  | _ => .ok (.text raw (some .env))

def asciiLower (s : String) : String :=
  s.map Char.toLower

/-- The keys an environment variable sets, or nothing if its name lacks the prefix or names an
empty key: the rest of its name, trimmed, `__` made a dot, split at the dots, in lower case. -/
def variableKeys (name : String) : Option (List String) :=
  let name := Text.trimBlank name
  let prefixed := "COSIGN_"
  if (name.take prefixed.length).toString.toUpper = prefixed then
    let keys := (Text.trimBlank ((name.drop prefixed.length).toString.replace "__" ".")).splitOn "."
    if keys.any (·.isEmpty) then none else some (keys.map asciiLower)
  else none

/-- The entries of `upper` laid over those of `lower`: a table over a table merges key by key
and takes the upper table's layer; any other value replaces what it lies over. -/
def overlay (lower : List (String × Setting)) : List (String × Setting) → List (String × Setting)
  | [] => lower
  | (k, v) :: rest =>
    let merged := match lower.lookup k, v with
      | some (.table inner _), .table upper l => .table (overlay inner upper) l
      | _, _ => v
    overlay (put lower k merged) rest

/-- The table that the environment `vars` makes: each variable with the prefix sets its keys,
laid over the table of the variables before it; a defect if reading a value is one. -/
def ofEnvironment (vars : List (String × String)) : Except Defect (List (String × Setting)) :=
  vars.foldlM (fun acc (name, value) =>
    match variableKeys name with
    | some keys => return overlay acc (assign [] keys (← ofVariable value))
    | none => pure acc) []

/-- The settings of the file layer `root` under the table `env` of the environment. -/
def withEnvironment (root : Setting) (env : List (String × Setting)) : Setting :=
  match root with
  | .table entries l => .table (overlay entries env) l
  | other => other

end Quorum.Setting
