import Quorum.Cli.Grammar
import Quorum.Text.Blank
import Quorum.Text.Quoted

/-!
# Usage lines and help

A command is reached on a command line by the names that lead to it, the program's first; there
it takes its own parameters and those it inherits. Its usage line names it, offers `[OPTIONS]`
when it has an option or flag that is neither required nor the help or version flag, and lists
the required parameters: options first, then every positional value in its place, between angle
brackets when it is required or was used and between square brackets otherwise, and
`<COMMAND>` last for a command that needs a subcommand. A usage line for a command line that
used parameters lists those as well, and offers no `[OPTIONS]`.

The help of a command gives what it does, its usage line, and the lists of its subcommands, its
positional values and its options, each entry padded so that the descriptions line up two
spaces after the longest entry. Options are listed by their places, and options with the same
place by their short names, lower case first, else by their long names.
-/

namespace Quorum.Cli

/-- A command as it is reached on a command line: the names that lead to it, the program's
first, and the parameters it takes there. -/
structure Reached where
  command : Command
  bin : String
  params : List Param

def spaces (n : Nat) : String :=
  String.ofList (List.replicate n ' ')

def insertNew (xs : List String) (x : String) : List String :=
  if xs.contains x then xs else xs ++ [x]

namespace Param

/-- The note after a parameter's help: its default value, quoted if it is empty or holds a
blank. -/
def note (p : Param) : String :=
  match p.default with
  | some d => "[default: " ++ (if d.isEmpty || d.any Text.isBlank then Text.quote d else d) ++ "]"
  | none => ""

def helpLine (p : Param) : String :=
  if p.note.isEmpty then p.help
  else if p.help.isEmpty then p.note
  else p.help ++ " " ++ p.note

/-- The key that orders options of the same place: the short name in lower case, then `0` for a
lower case name and `1` for another; else the long name; else the name after a brace. -/
def sortKey (p : Param) : String :=
  match p.short, p.long with
  | some c, _ => c.toLower.toString ++ (if c.isLower then "0" else "1")
  | none, some l => l
  | none, none => "\x7b" ++ p.id

def listedBefore (a b : Param) : Bool :=
  a.order < b.order || (a.order == b.order && decide (a.sortKey ≤ b.sortKey))

def setsWidth (p : Param) : Bool :=
  p.takesValue || p.long.isSome || p.short.isNone

/-- The line of an option in help, its description after `longest` and two spaces. -/
def optionLine (longest : Nat) (p : Param) : String :=
  let shortPart := match p.short with
    | some c => "-" ++ c.toString
    | none => if p.long.isSome then "    " else ""
  let longPart := match p.long with
    | some l => (if p.short.isSome then ", " else "") ++ "--" ++ l
    | none => ""
  let pad := (if p.long.isSome then longest + 2 else longest + 6) - p.display.length
  "  " ++ shortPart ++ longPart ++ p.valueText true ++ spaces pad ++ p.helpLine

def positionalLine (longest : Nat) (p : Param) : String :=
  "  " ++ p.display ++ spaces (longest + 2 - p.display.length) ++ p.helpLine

end Param

namespace Reached

def find? (r : Reached) (id : String) : Option Param :=
  r.params.find? (·.id == id)

def positionals (r : Reached) : List Param :=
  r.params.filter (·.isPositional)

def hasPositionals (r : Reached) : Bool :=
  r.params.any (·.isPositional)

def requiredIds (r : Reached) : List String :=
  (r.params.filter (·.required)).map (·.id)

def offersOptions (r : Reached) : Bool :=
  r.params.any fun p => !p.isPositional && !p.isBuiltin && !p.required

/-- The slot of a group in a usage line: its members between angle brackets, separated by
bars. -/
def groupSlot (r : Reached) (g : String) : String :=
  "<" ++ "|".intercalate ((r.params.filter (·.group == some g)).map Param.memberText) ++ ">"

/-- The parameters a usage line lists for the names `ids`, which may name groups: the options
and flags among them, then the slots of the groups, then every positional value, as required
when it is among them. The members of a group named are shown only in its slot. -/
def usageParams (r : Reached) (ids : List String) : List String :=
  let groups := ids.foldl (fun acc id =>
    if r.params.any (·.group == some id) then insertNew acc id else acc) []
  let shown := fun (p : Param) => !(p.group.any groups.contains)
  let named := (ids.filterMap r.find?).filter shown
  let opts := (named.filter (!·.isPositional)).foldl
    (fun acc p => insertNew acc (p.displayAs true)) []
  opts ++ groups.map r.groupSlot ++
    (r.positionals.filter shown).map fun p => p.displayAs (named.any (·.id == p.id))

/-- The usage line of the command, for the parameters and groups `used` on the command line. -/
def usage (r : Reached) (used : List String) : String :=
  let tag := if used.isEmpty && r.offersOptions then ["[OPTIONS]"] else []
  let sub := if r.command.needsSubcommand then ["<COMMAND>"] else []
  " ".intercalate ([r.bin] ++ tag ++ r.usageParams (r.requiredIds ++ used) ++ sub)

def commandSection (r : Reached) : List String :=
  let cs := r.command.children
  if cs.isEmpty then []
  else
    let longest := cs.foldl (fun w c => max w c.name.length) 2
    ["Commands:\n" ++ "\n".intercalate (cs.map fun c =>
      "  " ++ c.name ++ spaces (longest + 2 - c.name.length) ++ c.about)]

def argumentSection (r : Reached) : List String :=
  let ps := r.positionals
  if ps.isEmpty then []
  else
    let longest := ps.foldl (fun w p => max w p.display.length) 2
    ["Arguments:\n" ++ "\n".intercalate (ps.map (Param.positionalLine longest))]

def optionSection (r : Reached) : List String :=
  let ps := (r.params.filter (!·.isPositional)).mergeSort Param.listedBefore
  if ps.isEmpty then []
  else
    let longest := (ps.filter Param.setsWidth).foldl (fun w p => max w p.display.length) 2
    ["Options:\n" ++ "\n".intercalate (ps.map (Param.optionLine longest))]

def helpText (r : Reached) : String :=
  let sections := r.commandSection ++ r.argumentSection ++ r.optionSection
  let about := if r.command.about.isEmpty then "" else r.command.about ++ "\n"
  let text := about ++ "\nUsage: " ++ r.usage [] ++
    (if sections.isEmpty then "" else "\n\n" ++ "\n\n".intercalate sections)
  let text := if about.isEmpty then text.drop 1 |>.toString else text
  Text.trimBlankEnd text ++ "\n"

end Reached

end Quorum.Cli
