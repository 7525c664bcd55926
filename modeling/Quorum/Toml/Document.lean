/-!
# TOML documents

A TOML document read into a tree that remembers where each piece of it was written, so that a
refusal met while reading the tree into typed settings can point back at the text.

A table is either opened by a header (`[a.b]` or one entry of `[[a.b]]`), made as the parent of a
header (`a` for `[a.b]`), made by a dotted key (`a` for `a.b = 1`), or written inline (`{ … }`),
possibly by a dotted key inside it. Which of these it is decides what a later header or dotted key
may still add to it. Entries keep the order in which their keys were first written.

Positions count characters of the source text.
-/

namespace Quorum.Toml

/-- A stretch of the source text: the characters from `start` up to, not including, `stop`. -/
structure Span where
  start : Nat
  stop : Nat
  deriving DecidableEq, Repr

/-- A key as written: its name and where its text stands. -/
structure Key where
  name : String
  span : Span
  deriving Repr

/-- How a table came to be. -/
inductive TableForm where
  | header
  | parent
  | dotted
  | inline
  | inlineDotted
  deriving DecidableEq, Repr

namespace TableForm

/-- Whether the table was made on the way to something else rather than written. -/
def isImplicit : TableForm → Bool
  | .parent | .dotted | .inlineDotted => true
  | .header | .inline => false

def isDotted : TableForm → Bool
  | .dotted | .inlineDotted => true
  | _ => false

def isInline : TableForm → Bool
  | .inline | .inlineDotted => true
  | _ => false

end TableForm

/-- A value of a TOML document with where it was written. A date or time keeps only its place:
nothing here reads one. -/
inductive Node where
  | string (s : String) (span : Span)
  | integer (n : Int) (span : Span)
  | float (bits : UInt64) (span : Span)
  | boolean (b : Bool) (span : Span)
  | datetime (span : Span)
  | array (items : List Node) (span : Span)
  | tables (items : List Node) (span : Option Span)
  | table (entries : List (Key × Node)) (form : TableForm) (span : Option Span)
  deriving Repr, Inhabited

namespace Node

/-- Where the value was written; a table made on the way to another has no place of its own. -/
def span? : Node → Option Span
  | .string _ s | .integer _ s | .float _ s | .boolean _ s | .datetime s | .array _ s => some s
  | .tables _ s | .table _ _ s => s

def typeName : Node → String
  | .string .. => "string"
  | .integer .. => "integer"
  | .float .. => "float"
  | .boolean .. => "boolean"
  | .datetime .. => "datetime"
  | .array .. => "array"
  | .tables .. => "array of tables"
  | .table _ form _ => if form.isInline then "inline table" else "table"

end Node

def lookup (entries : List (Key × Node)) (name : String) : Option Node :=
  (entries.find? (·.1.name == name)).map (·.2)

def replaceAt (entries : List (Key × Node)) (name : String) (n : Node) : List (Key × Node) :=
  entries.map fun (k, v) => if k.name == name then (k, n) else (k, v)

def eraseAt (entries : List (Key × Node)) (name : String) : List (Key × Node) :=
  entries.filter (·.1.name != name)

end Quorum.Toml
