import Quorum.Cli.Value

/-!
# Command-line grammars

A command line is read against a grammar: a tree of commands, each with its parameters and its
subcommands. A parameter is a flag, an option that takes one value, or a positional value;
flags and options are spelled with a short name (`-a`), a long name (`--account`), or both.

Every command also takes `-h` and `--help`, the top command `-V` and `--version` as well, and a
command with subcommands has a `help` subcommand, listed last, that shows the help of the
commands named after it. A command with subcommands must be given one of them.

A global parameter of a command is also a parameter of every command below it, after that
command's own parameters. Options are listed in help by their place among the options of the
command that declares them, so a global option keeps the place it has in its own command.
-/

namespace Quorum.Cli

/-- What a parameter is. -/
inductive Kind where
  | flag
  | option (valueName : String)
  | positional (valueName : String)
  | rest (valueName : String)
  | help
  | version
  deriving DecidableEq, Repr

/-- A parameter of a command. -/
structure Param where
  id : String
  kind : Kind
  short : Option Char := none
  long : Option String := none
  check : ValueCheck := .text
  help : String := ""
  default : Option String := none
  required : Bool := false
  requiredUnless : List String := []
  conflicts : List String := []
  global : Bool := false
  /-- The group of parameters declared together that lists it as a member, if any; a usage line
  that names the group shows all its members in one slot. -/
  group : Option String := none
  /-- The place of an option among the options of its command; help lists lower places first. -/
  order : Nat := 999
  deriving DecidableEq, Repr

namespace Param

def isPositional (p : Param) : Bool :=
  match p.kind with
  | .positional _ | .rest _ => true
  | _ => false

def takesValue (p : Param) : Bool :=
  match p.kind with
  | .option _ | .positional _ | .rest _ => true
  | _ => false

def isBuiltin (p : Param) : Bool :=
  match p.kind with
  | .help | .version => true
  | _ => false

/-- The name of the parameter: its long name after `--`, else its short name after `-`. -/
def spelled (p : Param) : String :=
  match p.long, p.short with
  | some l, _ => "--" ++ l
  | none, some c => "-" ++ c.toString
  | none, none => ""

/-- The value of the parameter as it is written in messages, for a required parameter or not. -/
def valueText (p : Param) (required : Bool) : String :=
  match p.kind with
  | .option n => " <" ++ n ++ ">"
  | .positional n => if required then "<" ++ n ++ ">" else "[" ++ n ++ "]"
  | .rest n => "[" ++ n ++ "]..."
  | _ => ""

/-- The parameter as a usage line writes it, for a required parameter or not. -/
def displayAs (p : Param) (required : Bool) : String :=
  p.spelled ++ p.valueText required

/-- The parameter as messages name it: `--account <ACCOUNT>`, `--yes`, `<CHAIN>` or `[CHAIN]`. -/
def display (p : Param) : String :=
  p.displayAs p.required

/-- The member of a group as the group's slot in a usage line writes it: a positional value by
its value name, another parameter as a required one. -/
def memberText (p : Param) : String :=
  match p.kind with
  | .positional n | .rest n => n
  | _ => p.displayAs true

def helpFlag : Param :=
  { id := "help", kind := .help, short := some 'h', long := some "help", help := "Print help" }

def versionFlag : Param :=
  { id := "version", kind := .version, short := some 'V', long := some "version",
    help := "Print version" }

end Param

def inGroup (g : String) (ps : List Param) : List Param :=
  ps.map fun p => { p with group := some g }

/-- Numbers the options and flags of a list of parameters by their places, from 0. -/
def numberOptions (ps : List Param) : List Param :=
  (ps.foldl (fun (acc, n) p =>
    if p.isPositional then (acc ++ [p], n) else (acc ++ [{ p with order := n }], n + 1))
    ([], 0)).1

/-- A command: its name, what it does, its parameters and its subcommands. -/
inductive Command where
  | node (name about : String) (params : List Param) (subcommands : List Command)

namespace Command

def name : Command → String
  | .node n _ _ _ => n

def about : Command → String
  | .node _ a _ _ => a

def params : Command → List Param
  | .node _ _ ps _ => ps

def subcommands : Command → List Command
  | .node _ _ _ cs => cs

def make (name about : String) (params : List Param) (subcommands : List Command) : Command :=
  .node name about (numberOptions params) subcommands

def helpCommand : Command :=
  .node "help" "Print this message or the help of the given subcommand(s)"
    [{ id := "subcommand", kind := .rest "COMMAND", help := "Print help for the subcommand(s)" }] []

def isHelp (c : Command) : Bool :=
  c.name == "help"

def children (c : Command) : List Command :=
  if c.subcommands.isEmpty then [] else c.subcommands ++ [helpCommand]

def child? (c : Command) (n : String) : Option Command :=
  c.children.find? (·.name == n)

def needsSubcommand (c : Command) : Bool :=
  !c.subcommands.isEmpty

/-- The parameters a command takes: its own, the global ones of the commands above it that it
does not declare itself, and the help flag; the top command also takes the version flag. A
group belongs to the command that declares it, so inherited parameters are in no group. -/
def effective (c : Command) (inherited : List Param) (top : Bool) : List Param :=
  if c.isHelp then c.params
  else
    c.params ++ ((inherited.filter fun g => !c.params.any (·.id == g.id)).map fun g =>
      { g with group := none }) ++ [Param.helpFlag] ++ (if top then [Param.versionFlag] else [])

end Command

end Quorum.Cli
