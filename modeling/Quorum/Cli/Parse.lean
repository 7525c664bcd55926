import Quorum.Cli.Help
import Quorum.Cli.Error
import Quorum.Cli.Commands
import Quorum.Text.Similarity

/-!
# Reading a command line

A command line is read from left to right against the program's commands. At each command an
argument is, in this order:
- the name of a subcommand, which the rest of the line is read against; `help` instead shows the
  help of the commands named after it;
- `--`, after which every argument is a positional value;
- `--name` or `--name=value`, a long name;
- `-abc`, short names: flags, up to an option, which takes the rest of the argument as its
  value (after an optional `=`), or the next argument when nothing is left;
- the value of the option before it;
- else the next positional value.

A value is checked when the next parameter starts or the command's part of the line ends, so an
unknown argument right after a wrong value is reported rather than the value. The help flag
shows the help at once; a parameter given twice is refused. When a command's part ends, the
subcommand's part is read first; then the command's defaults are filled in, and the command is
checked: that it was given a subcommand if it needs one, that no parameter was given with one
it may not be given with, and that every required parameter was given.

Reading ends in what was given for each command on the way, or in a stop: help or the version
to show, or a refusal.
-/

namespace Quorum.Cli

/-- Where the values of a parameter came from. -/
inductive Source where
  | given
  | default
  deriving DecidableEq, Repr

/-- A parameter with its values. -/
structure Given where
  id : String
  values : List String
  source : Source
  deriving DecidableEq, Repr

/-- Why reading a command line stopped before any command ran. -/
inductive Stop where
  | help (text : String)
  | version (text : String)
  /-- A command that needs a subcommand was given nothing at all: its help, as a refusal. -/
  | bare (help : String)
  | refused (e : ArgError)
  deriving DecidableEq, Repr

namespace Stop

def isFailure : Stop → Bool
  | .help _ | .version _ => false
  | _ => true

def text : Stop → String
  | .help t | .version t | .bare t => t
  | .refused e => e.render

end Stop

/-- What has been read of one command's part of a command line. -/
structure Level where
  reached : Reached
  given : List Given := []
  pending : Option (String × List String) := none
  place : Nat := 0
  escaped : Bool := false
  awaiting : Option String := none

def similarNames (v : String) (names : List String) : List String :=
  Text.closeTo v names

namespace Level

def has (lv : Level) (id : String) : Bool :=
  lv.given.any fun g => g.id == id && g.source == .given

/-- The parameters given on the command line, in the order they were read. -/
def explicit (lv : Level) : List String :=
  (lv.given.filter (·.source == .given)).map (·.id)

/-- The parameters given on the command line, each group they belong to after its first member
given. -/
def explicitWithGroups (lv : Level) : List String :=
  lv.explicit.foldl (fun acc id =>
    match (lv.reached.find? id).bind (·.group) with
    | some g => insertNew (insertNew acc id) g
    | none => insertNew acc id) []

def refuse {α : Type} (e : ArgError) : Except Stop α :=
  .error (.refused e)

/-- Records a parameter with its values, checking them; the help and version flags stop. -/
def store (lv : Level) (p : Param) (values : List String) : Except Stop Level :=
  match p.kind with
  | .help => .error (.help lv.reached.helpText)
  | .version => .error (.version (programName ++ " " ++ programVersion ++ "\n"))
  | _ =>
    if p.takesValue && values.isEmpty then refuse (.missingValue p.display)
    else if lv.has p.id then refuse (.repeated p.display (lv.reached.usage []))
    else
      match values.findSome? fun v => p.check.check v with
      | some .missing => refuse (.missingValue p.display)
      | some (.invalid shown reason) => refuse (.invalidValue p.display shown reason)
      | none =>
        let kept := if p.takesValue then values else []
        .ok { lv with given := lv.given ++ [⟨p.id, kept, .given⟩] }

def settle (lv : Level) : Except Stop Level :=
  match lv.pending with
  | none => .ok lv
  | some (id, values) =>
    let lv := { lv with pending := none }
    match lv.reached.find? id with
    | some p => lv.store p values
    | none => .ok lv

/-- Settles the pending parameter on the way to a refusal: a parameter with values counts as
given even when its values are wrong, and one given twice counts as not given. -/
def settleQuietly (lv : Level) : Level :=
  match lv.pending with
  | none => lv
  | some (id, values) =>
    let lv := { lv with pending := none }
    if values.isEmpty then lv
    else if lv.has id then { lv with given := lv.given.filter (·.id != id) }
    else { lv with given := lv.given ++ [⟨id, values, .given⟩] }

def give (lv : Level) (p : Param) (values : List String) : Except Stop Level := do
  let lv ← lv.settle
  let lv ← lv.store p values
  return { lv with awaiting := none }

/-- Reads an option, with the value joined to it or else waiting for the next argument. -/
def openOption (lv : Level) (p : Param) (joined : Option String) : Except Stop Level :=
  match joined with
  | some v => lv.give p [v]
  | none => do
    let lv ← lv.settle
    return { lv with pending := some (p.id, []), awaiting := some p.id }

/-- The first of the candidates at the earliest place, each with its place. -/
def earliest {α : Type} : List (Nat × α) → Option α
  | [] => none
  | (i, a) :: rest =>
    match earliest rest with
    | some b => if rest.any (·.1 < i) then some b else some a
    | none => some a

/-- The refusal of a long name that names no parameter: with the most similar long name of the
command, or else of the subcommand named first later on the line that has a similar one. -/
def unknownLong (lv : Level) (name : String) (later : List String) : ArgError :=
  let r := lv.reached
  let longs := r.params.filterMap (·.long)
  let similar := (similarNames name longs).getLast?
  let elsewhere := if similar.isSome then none else
    earliest (r.command.subcommands.filterMap fun sc =>
      ((similarNames name ((sc.effective (r.params.filter (·.global)) false).filterMap
        (·.long))).getLast?).bind fun l =>
        (later.findIdx? (· == sc.name)).map fun i => (i, (sc.name, l)))
  let used := match similar.bind fun l => r.params.find? (·.long == some l) with
    | some p => insertNew lv.explicit p.id
    | none => lv.explicit
  let tips := match elsewhere with
    | some (sc, l) => ["'" ++ sc ++ " --" ++ l ++ "' exists"]
    | none => if similar.isNone && r.hasPositionals && !lv.escaped then
        ["to pass '--" ++ name ++ "' as a value, use '-- --" ++ name ++ "'"] else []
  .unknownArgument ("--" ++ name) (similar.map ("--" ++ ·)) tips (r.usage used)

def long (lv : Level) (name : String) (joined : Option String) (later : List String) :
    Except Stop Level :=
  match lv.reached.params.find? (·.long == some name) with
  | some p =>
    match p.kind, joined with
    | .option _, _ => lv.openOption p joined
    | _, some v =>
      refuse (.unexpectedValue p.display v (lv.reached.usage (lv.explicitWithGroups ++ [p.id])))
    | _, none => lv.give p []
  | none => refuse ((lv.settleQuietly).unknownLong name later)

def unknownShort (lv : Level) (c : Char) : ArgError :=
  let arg := "-" ++ c.toString
  let tips := if lv.reached.hasPositionals && !lv.escaped then
    ["to pass '" ++ arg ++ "' as a value, use '-- " ++ arg ++ "'"] else []
  .unknownArgument arg none tips (lv.reached.usage [])

def shorts (lv : Level) : List Char → Except Stop Level
  | [] => .ok lv
  | c :: rest =>
    match lv.reached.params.find? (·.short == some c) with
    | none => refuse (lv.settleQuietly.unknownShort c)
    | some p =>
      match p.kind with
      | .option _ =>
        let joined := match rest with
          | [] => none
          | '=' :: more => some (String.ofList more)
          | more => some (String.ofList more)
        lv.openOption p joined
      | _ => do (← lv.give p []).shorts rest

def unplaced (lv : Level) (arg : String) : ArgError :=
  let r := lv.reached
  let usage := r.usage []
  if lv.escaped && (r.command.child? arg).isSome then
    .unknownArgument arg none
      ["subcommand '" ++ arg ++ "' exists; to use it, remove the '--' before it"] usage
  else if r.command.needsSubcommand then
    let similar := similarNames arg (r.command.children.map (·.name))
    if !similar.isEmpty || !r.hasPositionals then .unknownSubcommand arg similar none usage
    else .unknownArgument arg none [] usage
  else .unknownArgument arg none [] usage

def positional (lv : Level) (arg : String) : Except Stop Level :=
  match lv.reached.positionals[lv.place]? with
  | some p => do
    let lv ← lv.settle
    return { lv with pending := some (p.id, [arg]), place := lv.place + 1, awaiting := none }
  | none => refuse (lv.settleQuietly.unplaced arg)

def value (lv : Level) (arg : String) : Level :=
  match lv.pending with
  | some (id, values) => { lv with pending := some (id, values ++ [arg]), awaiting := none }
  | none => { lv with awaiting := none }

def splitLong (body : String) : String × Option String :=
  match body.splitOn "=" with
  | [] => ("", none)
  | [name] => (name, none)
  | name :: rest => (name, some ("=".intercalate rest))

end Level

/-- Shows the help of the command reached by the names `args`, from the command `c` reached as
`bin` with the parameters `params`. -/
def helpOf (c : Command) (bin : String) (params : List Param) : List String → Stop
  | [] => .help (Reached.helpText ⟨c, bin, params⟩)
  | a :: rest =>
    match c.child? a with
    | some sc =>
      helpOf sc (bin ++ " " ++ sc.name) (sc.effective (params.filter (·.global)) false) rest
    | none => .refused (.unknownSubcommand a [] none (Reached.usage ⟨c, bin, params⟩ []))

namespace Level

/-- Reads one command's part of a command line: what was read, and the subcommand named with
the rest of the line, if any. -/
def read (lv : Level) : List String → Except Stop (Level × Option (Command × List String))
  | [] => .ok (lv, none)
  | a :: rest =>
    if lv.escaped then do (← lv.positional a).read rest
    else
      let r := lv.reached
      match r.command.child? a with
      | some sc =>
        if sc.isHelp then .error (helpOf r.command r.bin r.params rest)
        else .ok (lv, some (sc, rest))
      | none =>
        if a == "--" then { lv with escaped := true }.read rest
        else if a.startsWith "--" then
          let (name, joined) := splitLong (a.drop 2).toString
          do (← { lv with awaiting := none }.long name joined rest).read rest
        else if a.startsWith "-" && a != "-" then
          do (← { lv with awaiting := none }.shorts (a.drop 1).toString.toList).read rest
        else match lv.awaiting with
          | some _ => (lv.value a).read rest
          | none => do (← lv.positional a).read rest

/-- The parameters the parameter `id` may not be given with, among those given. -/
def conflictsOf (lv : Level) (id : String) : List String :=
  let own := ((lv.reached.find? id).map (·.conflicts)).getD []
  lv.explicit.flatMap fun other =>
    if other == id then []
    else
      let theirs := ((lv.reached.find? other).map (·.conflicts)).getD []
      (if own.contains other then [other] else []) ++ (if theirs.contains id then [other] else [])

def placeOf (lv : Level) (id : String) : Nat :=
  match lv.reached.positionals.findIdx? (·.id == id) with
  | some i => i + 1
  | none => 0

def missing (lv : Level) : List String :=
  let absent := lv.reached.params.filter fun p => !lv.has p.id
  let plain := (absent.filter fun p => p.required && (lv.conflictsOf p.id).isEmpty).map (·.id)
  let conditional := (absent.filter fun p =>
    !p.requiredUnless.isEmpty && !p.requiredUnless.any lv.has).map (·.id)
  let found := plain ++ conditional
  let highest := found.foldl (fun h id => max h (lv.placeOf id)) 0
  found ++ (lv.reached.positionals.filter fun p =>
    !lv.has p.id && lv.placeOf p.id < highest).map (·.id)

/-- The required parameters among `ids` that were not given, as a refusal lists them. -/
def missingList (lv : Level) (ids : List String) : List String :=
  let named := (lv.reached.requiredIds ++ ids).filterMap lv.reached.find?
  let absent := named.filter fun p => !lv.has p.id
  let opts := (absent.filter (!·.isPositional)).foldl
    (fun acc p => insertNew acc (p.displayAs true)) []
  let positionals := lv.reached.positionals.filter fun p => absent.any (·.id == p.id)
  opts ++ positionals.map (·.displayAs true)

def check (lv : Level) (hasSubcommand : Bool) : Except Stop Unit := do
  let r := lv.reached
  if !hasSubcommand && r.command.needsSubcommand then
    if lv.explicit.isEmpty then throw (.bare r.helpText)
    else throw (.refused (.missingSubcommand r.bin (r.command.children.map (·.name)) (r.usage [])))
  for id in lv.explicit do
    let others := lv.conflictsOf id
    if !others.isEmpty then
      let p := (r.find? id).map Param.display |>.getD id
      let shown := others.foldl
        (fun acc o => insertNew acc ((r.find? o).map Param.display |>.getD o)) []
      throw (.refused (.conflict p shown (r.usage (lv.explicit.filter (!others.contains ·)))))
  let missing := lv.missing
  if !missing.isEmpty then
    throw (.refused (.missingRequired (lv.missingList missing) (r.usage (lv.explicit ++ missing))))

def withDefaults (lv : Level) : Level :=
  { lv with given := lv.given ++ lv.reached.params.filterMap fun p =>
      match p.default with
      | some d => if lv.given.any (·.id == p.id) then none else some ⟨p.id, [d], .default⟩
      | none => none }

/-- Ends the command's part of the line: settles, fills in defaults, and checks. -/
def finish (lv : Level) (hasSubcommand : Bool) : Except Stop Level := do
  let lv := (← lv.settle).withDefaults
  lv.check hasSubcommand
  return lv

end Level

/-- What a command line gave each command on the way to the one it runs, the program first:
the command's name and its parameters with their values. -/
abbrev Reading := List (String × List Given)

/-- Reads a command line against the command `c` reached as `bin` with the global parameters
`inherited`; `fuel` bounds the depth of subcommands. -/
def readAt :
    Nat → Command → String → List Param → Bool → List String → Except Stop Reading
  | 0, _, _, _, _, _ => .ok []
  | fuel + 1, c, bin, inherited, top, args => do
    let params := c.effective inherited top
    let (lv, sub) ← Level.read { reached := ⟨c, bin, params⟩ } args
    match sub with
    | none => return [(c.name, (← lv.finish false).given)]
    | some (sc, rest) =>
      let below ← readAt fuel sc (bin ++ " " ++ sc.name) (params.filter (·.global)) false rest
      let lv ← lv.finish true
      return (c.name, lv.given) :: below

def readCommandLine (args : List String) : Except Stop Reading :=
  readAt (args.length + 1) program programName [] true args

end Quorum.Cli
