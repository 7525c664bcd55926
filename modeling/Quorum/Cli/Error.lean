/-!
# Refused command lines

Why a command line was refused, and the text shown for it. The text starts with `error: ` and a
sentence, may add tips, each on its own line after two spaces, then the usage line of the
command, and ends by pointing at `--help`:

    error: unexpected argument '-1' found

      tip: to pass '-1' as a value, use '-- -1'

    Usage: cosign tx push [OPTIONS] <FILE> <CHAIN> <KEY>

    For more information, try '--help'.

A refused value has no usage line. Parameters are named as messages name them (`--account
<ACCOUNT>`, `[CHAIN]`), values and arguments between apostrophes.
-/

namespace Quorum.Cli

/-- Why a command line was refused. -/
inductive ArgError where
  /-- An argument that names no parameter; a similar parameter to try, and more tips. -/
  | unknownArgument (arg : String) (similar : Option String) (tips : List String) (usage : String)
  | invalidValue (param value reason : String)
  | missingValue (param : String)
  | unexpectedValue (param value : String) (usage : String)
  | repeated (param : String) (usage : String)
  | conflict (param : String) (others : List String) (usage : String)
  | missingRequired (params : List String) (usage : String)
  | unknownSubcommand (name : String) (similar : List String) (tip : Option String)
      (usage : String)
  | missingSubcommand (command : String) (names : List String) (usage : String)
  deriving DecidableEq, Repr

def quoted (s : String) : String :=
  "'" ++ s ++ "'"

def similarTip (what : String) : List String → String
  | [one] => "a similar " ++ what ++ " exists: " ++ quoted one
  | names => "similar " ++ what ++ "s exist: " ++ ", ".intercalate (names.map quoted)

/-- Tip lines, after the blank line that separates them from the sentence. -/
def tipLines (tips : List String) : String :=
  if tips.isEmpty then "" else "\n" ++ String.join (tips.map ("\n  tip: " ++ ·))

def usageLines (usage : String) : String :=
  "\n\nUsage: " ++ usage

namespace ArgError

def body : ArgError → String
  | .unknownArgument arg similar tips usage =>
    "unexpected argument " ++ quoted arg ++ " found" ++
      tipLines ((similar.map (similarTip "argument" [·])).toList ++ tips) ++ usageLines usage
  | .invalidValue param value reason =>
    "invalid value " ++ quoted value ++ " for " ++ quoted param ++ ": " ++ reason
  | .missingValue param =>
    "a value is required for " ++ quoted param ++ " but none was supplied"
  | .unexpectedValue param value usage =>
    "unexpected value " ++ quoted value ++ " for " ++ quoted param ++
      " found; no more were expected" ++ usageLines usage
  | .repeated param usage =>
    "the argument " ++ quoted param ++ " cannot be used multiple times" ++ usageLines usage
  | .conflict param [other] usage =>
    "the argument " ++ quoted param ++ " cannot be used with " ++ quoted other ++ usageLines usage
  | .conflict param others usage =>
    "the argument " ++ quoted param ++ " cannot be used with:" ++
      String.join (others.map ("\n  " ++ ·)) ++ usageLines usage
  | .missingRequired params usage =>
    "the following required arguments were not provided:" ++
      String.join (params.map ("\n  " ++ ·)) ++ usageLines usage
  | .unknownSubcommand name similar tip usage =>
    "unrecognized subcommand " ++ quoted name ++
      tipLines ((if similar.isEmpty then [] else [similarTip "subcommand" similar]) ++
        tip.toList) ++
      usageLines usage
  | .missingSubcommand command names usage =>
    quoted command ++ " requires a subcommand but one was not provided" ++
      "\n  [subcommands: " ++ ", ".intercalate names ++ "]" ++ usageLines usage

def render (e : ArgError) : String :=
  "error: " ++ e.body ++ "\n\nFor more information, try '--help'.\n"

end ArgError

end Quorum.Cli
