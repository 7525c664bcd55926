import Quorum.Toml.Number

/-!
# Values of TOML

A value is told by its first character: a quote starts a string, `[` an array, `{` an inline
table, a sign or digit a date, float or integer, `t`/`f` a boolean, `i`/`n` the special floats.
Anything else is refused as if a string had been meant.

An array holds values separated by commas, with blanks, line ends and comments around them and an
optional comma after the last. An inline table holds `key = value` pairs on one line; a dotted
key makes the tables on its way, and no key may be given twice. Arrays and inline tables nest at
most `nestingLimit` deep.
-/

namespace Quorum.Toml

open Parser

def nestingLimit : Nat := 79

/-- The table of an inline table reached through `path`, made where missing, changed by `f`.
Only tables made by dotted keys may be walked through; `whole` is the full path, for messages. -/
def descendInline {β : Type} (whole : List Key) (f : List (Key × Node) → Except Cause (List (Key × Node) × β)) :
    Nat → List Key → List (Key × Node) → Except Cause (List (Key × Node) × β)
  | _, [], entries => f entries
  | i, k :: ks, entries =>
    match lookup entries k.name with
    | none => do
      let (inner, b) ← descendInline whole f (i + 1) ks []
      return (entries ++ [(k, .table inner .inlineDotted none)], b)
    | some (.table inner form span) =>
      if !form.isImplicit then .error (.duplicateKey k.name none)
      else do
        let (inner', b) ← descendInline whole f (i + 1) ks inner
        return (replaceAt entries k.name (.table inner' form span), b)
    | some other =>
      .error (.extendsNonTable ((whole.take (i + 1)).map (·.name)) other.typeName)

def inlineEntries (pairs : List (List Key × Key × Node)) : Except Cause (List (Key × Node)) :=
  pairs.foldlM (fun entries (path, k, v) => do
    let (entries', ()) ← descendInline path (fun inner =>
      match lookup inner k.name with
      | some _ => .error (.duplicateKey k.name none)
      | none => .ok (inner ++ [(k, v)], ())) 0 path entries
    return entries') []

def array (item : Parser Node) : Parser (List Node) := do
  char '['
  let items ← cut do
    let items ← opt do
      let items ← sepBy1 (do blanksCommentsNewlines; let v ← item; blanksCommentsNewlines; return v)
        (char ',')
      let _ ← opt (char ',')
      return items
    blanksCommentsNewlines
    return items.getD []
  expecting [.char ']'] (reading "array" (cut (char ']')))
  return items

def inlinePair (item : Parser Node) : Parser (List Key × Key × Node) := do
  let ks ← key
  cut do
    expecting [.char '.', .char '='] (char '=')
    blanks
    let v ← item
    blanks
    match ks.reverse with
    | last :: path => return (path.reverse, last, v)
    | [] => fail

def inlineTable (item : Parser Node) : Parser (List (Key × Node)) := do
  char '{'
  let entries ← cut (refine (do let pairs ← sepBy (inlinePair item) (char ','); blanks; return pairs)
    inlineEntries)
  expecting [.char '}'] (reading "inline table" (cut (char '}')))
  return entries

def asString {α : Type} (p : Parser α) : Parser α :=
  expecting [.char '"', .char '\''] (reading "string" p)

/-- A value; `nested` reads the values inside an array or inline table, and is missing when the
nesting limit is reached. -/
def valueWith (nested : Option (Parser Node)) : Parser Node := fun c =>
  let nestedOr (p : Parser Node → Parser Node) : Parser Node :=
    match nested with
    | some item => p item
    | none => failFinalAt c.pos .recursionLimit
  let body : Parser (Node) :=
    match c.rest.head? with
    | none => fail
    | some '"' | some '\'' => do
      let (s, span) ← spanned string
      return .string s span
    | some '[' => nestedOr fun item => do
      let (items, span) ← spanned (array item)
      return .array items span
    | some '{' => nestedOr fun item => do
      let (entries, span) ← spanned (inlineTable item)
      return .table entries .inline (some span)
    | some '_' => do
      let (n, span) ← spanned (expecting [.description "leading digit"] integer)
      return .integer n span
    | some '.' => do
      let (x, span) ← spanned (expecting [.description "leading digit"] float)
      return .float x span
    | some 't' => do
      let ((), span) ← spanned (asString (do let _ ← lookahead (char 't'); cut (literal "true")))
      return .boolean true span
    | some 'f' => do
      let ((), span) ← spanned (asString (do let _ ← lookahead (char 'f'); cut (literal "false")))
      return .boolean false span
    | some 'i' => do
      let ((), span) ← spanned (asString (literal "inf"))
      return .float infinityBits span
    | some 'n' => do
      let ((), span) ← spanned (asString (literal "nan"))
      return .float nanBits span
    | some x =>
      if isSign x || x.isDigit then
        orElse (do let ((), span) ← spanned dateTime; return .datetime span) <|
        orElse (do let (v, span) ← spanned float; return .float v span)
          (do let (n, span) ← spanned integer; return .integer n span)
      else asString fail
  body c

def valueAt : Nat → Parser Node
  | 0 => valueWith none
  | fuel + 1 => valueWith (some (valueAt fuel))

def value : Parser Node := valueAt nestingLimit

end Quorum.Toml
