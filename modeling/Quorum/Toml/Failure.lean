/-!
# Why TOML text could not be read

A failure of the reader stands at one character of the text and collects, on its way out through
the enclosing rules, notes on what was being read (`table header`, `basic string`) and what could
have stood there instead (`` `]` ``, `newline`). A cause says why text of the right shape was still
refused: a number too large, a key given twice.

A failure is *final* once a rule has committed to its reading; an alternative is then not tried.

The message names the first thing that was being read, then every expectation in the order
collected, then the cause, one per line:

    invalid table header
    expected `.`, `]`
-/

namespace Quorum.Toml

/-- What a failed rule could have read instead. -/
inductive Expected where
  | char (c : Char)
  | literal (s : String)
  | description (s : String)
  deriving DecidableEq, Repr

/-- A note that a failure collects on its way out. -/
inductive Note where
  | reading (what : String)
  | expected (e : Expected)
  deriving DecidableEq, Repr

/-- Why well-shaped text was refused. -/
inductive Cause where
  | tooLarge
  | tooSmall
  /-- A key given twice; `table` names the table when the key was written under a header. -/
  | duplicateKey (key : String) (table : Option (List String))
  | extendsNonTable (path : List String) (actual : String)
  | outOfRange
  | recursionLimit
  deriving DecidableEq, Repr

/-- A failure of the reader. -/
structure Failure where
  final : Bool := false
  pos : Nat
  notes : List Note := []
  cause : Option Cause := none
  deriving Repr

/-- How an expectation is named: a line feed as `newline`, other text between backticks. -/
def Expected.text : Expected → String
  | .char '\n' => "newline"
  | .char '`' => "'`'"
  | .char c => "`" ++ c.toString ++ "`"
  | .literal s => "`" ++ s ++ "`"
  | .description s => s

def Cause.text : Cause → String
  | .tooLarge => "number too large to fit in target type"
  | .tooSmall => "number too small to fit in target type"
  | .duplicateKey key none => "duplicate key `" ++ key ++ "`"
  | .duplicateKey key (some []) => "duplicate key `" ++ key ++ "` in document root"
  | .duplicateKey key (some path) =>
    "duplicate key `" ++ key ++ "` in table `" ++ ".".intercalate path ++ "`"
  | .extendsNonTable path actual =>
    "dotted key `" ++ ".".intercalate path ++ "` attempted to extend non-table type (" ++ actual ++ ")"
  | .outOfRange => "value is out of range"
  | .recursionLimit => "recursion limit exceeded"

def Failure.message (f : Failure) : String :=
  let reading := f.notes.findSome? fun | .reading w => some w | _ => none
  let expected := f.notes.filterMap fun | .expected e => some e.text | _ => none
  let lines :=
    (match reading with | some w => ["invalid " ++ w] | none => []) ++
    (if expected.isEmpty then [] else ["expected " ++ ", ".intercalate expected]) ++
    (match f.cause with | some c => [c.text] | none => [])
  "\n".intercalate lines

end Quorum.Toml
