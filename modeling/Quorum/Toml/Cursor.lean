import Quorum.Toml.Failure
import Quorum.Toml.Document

/-!
# Readers over TOML text

A reader takes the text still to read and either consumes a prefix of it or fails. A failure
records where the reader stood: a rule that fails after consuming part of its text points past
that part, and only the rules that say so move the failure back to where they began (a check on
what was read, a look ahead). An alternative, an optional piece or a repetition is tried only
while the failure is not final.

Repetitions stop when their piece stops consuming, so every reader here ends.
-/

namespace Quorum.Toml

/-- The text still to read and how many characters came before it. -/
structure Cursor where
  rest : List Char
  pos : Nat

abbrev Parser (α : Type) := StateT Cursor (Except Failure) α

namespace Parser

/-- Fails where the reader stands, leaving the choice to an enclosing alternative. -/
def fail {α : Type} : Parser α := fun c => .error { pos := c.pos }

def failBecause {α : Type} (cause : Cause) : Parser α := fun c => .error { pos := c.pos, cause := some cause }

def failFinalAt {α : Type} (pos : Nat) (cause : Cause) : Parser α := fun _ =>
  .error { final := true, pos := pos, cause := some cause }

def peek : Parser (Option Char) := fun c => .ok (c.rest.head?, c)

def here : Parser Nat := fun c => .ok (c.pos, c)

def any : Parser Char := fun c =>
  match c.rest with
  | x :: xs => .ok (x, ⟨xs, c.pos + 1⟩)
  | [] => .error { pos := c.pos }

def oneOf (p : Char → Bool) : Parser Char := fun c =>
  match c.rest with
  | x :: xs => if p x then .ok (x, ⟨xs, c.pos + 1⟩) else .error { pos := c.pos }
  | [] => .error { pos := c.pos }

def char (x : Char) : Parser Unit := fun c =>
  match c.rest with
  | y :: ys => if y = x then .ok ((), ⟨ys, c.pos + 1⟩) else .error { pos := c.pos }
  | [] => .error { pos := c.pos }

def literal (s : String) : Parser Unit := fun c =>
  let cs := s.toList
  if cs.isPrefixOf c.rest then .ok ((), ⟨c.rest.drop cs.length, c.pos + cs.length⟩)
  else .error { pos := c.pos }

def eof : Parser Unit := fun c =>
  if c.rest.isEmpty then .ok ((), c) else .error { pos := c.pos }

def takeWhile (p : Char → Bool) : Parser (List Char) := fun c =>
  let taken := c.rest.takeWhile p
  .ok (taken, ⟨c.rest.dropWhile p, c.pos + taken.length⟩)

def takeWhile1 (p : Char → Bool) : Parser (List Char) := fun c =>
  let taken := c.rest.takeWhile p
  if taken.isEmpty then .error { pos := c.pos }
  else .ok (taken, ⟨c.rest.dropWhile p, c.pos + taken.length⟩)

def takeBetween (lo hi : Nat) (p : Char → Bool) : Parser (List Char) := fun c =>
  let taken := (c.rest.takeWhile p).take hi
  if taken.length < lo then .error { pos := c.pos }
  else .ok (taken, ⟨c.rest.drop taken.length, c.pos + taken.length⟩)

def cut {α : Type} (p : Parser α) : Parser α := fun c =>
  match p c with
  | .error f => .error { f with final := true }
  | ok => ok

def note {α : Type} (n : Note) (p : Parser α) : Parser α := fun c =>
  match p c with
  | .error f => .error { f with notes := f.notes ++ [n] }
  | ok => ok

def reading {α : Type} (what : String) (p : Parser α) : Parser α := note (.reading what) p

def expecting {α : Type} (es : List Expected) (p : Parser α) : Parser α :=
  es.foldl (fun q e => note (.expected e) q) p

/-- `p`, or nothing when it fails without committing; then nothing is consumed. -/
def opt {α : Type} (p : Parser α) : Parser (Option α) := fun c =>
  match p c with
  | .ok (a, c') => .ok (some a, c')
  | .error f => if f.final then .error f else .ok (none, c)

/-- `p`, or else `q` from the same place when `p` fails without committing. -/
def orElse {α : Type} (p q : Parser α) : Parser α := fun c =>
  match p c with
  | .error f => if f.final then .error f else q c
  | ok => ok

def refine {α β : Type} (p : Parser α) (f : α → Except Cause β) : Parser β := fun c =>
  match p c with
  | .ok (a, c') =>
    match f a with
    | .ok b => .ok (b, c')
    | .error e => .error { pos := c.pos, cause := some e }
  | .error f => .error f

def verify {α : Type} (p : Parser α) (ok : α → Bool) : Parser α := fun c =>
  match p c with
  | .ok (a, c') => if ok a then .ok (a, c') else .error { pos := c.pos }
  | .error f => .error f

/-- Reads `p` without consuming anything; a failure stands where `p` began. -/
def lookahead {α : Type} (p : Parser α) : Parser α := fun c =>
  match p c with
  | .ok (a, _) => .ok (a, c)
  | .error f => .error { f with pos := c.pos }

def spanned {α : Type} (p : Parser α) : Parser (α × Span) := fun c =>
  match p c with
  | .ok (a, c') => .ok ((a, ⟨c.pos, c'.pos⟩), c')
  | .error f => .error f

def consumed {α : Type} (p : Parser α) : Parser (List Char) := fun c =>
  match p c with
  | .ok (_, c') => .ok (c.rest.take (c'.pos - c.pos), c')
  | .error f => .error f

/-- Reads `p`, then `q` on what `p` read; a failure of `q` stands where `p` began. -/
def within {α : Type} (p : Parser (List Char)) (q : Parser α) : Parser α := fun c =>
  match p c with
  | .ok (cs, c') =>
    match q ⟨cs, c.pos⟩ with
    | .ok (a, _) => .ok (a, c')
    | .error f => .error { f with pos := c.pos }
  | .error f => .error f

def manyLoop {α : Type} (p : Parser α) : Nat → Cursor → List α → Except Failure (List α × Cursor)
  | 0, c, acc => .ok (acc.reverse, c)
  | fuel + 1, c, acc =>
    match p c with
    | .ok (a, c') =>
      if c'.pos = c.pos then .ok ((a :: acc).reverse, c') else manyLoop p fuel c' (a :: acc)
    | .error f => if f.final then .error f else .ok (acc.reverse, c)

def many {α : Type} (p : Parser α) : Parser (List α) := fun c =>
  manyLoop p (c.rest.length + 1) c []

def many1 {α : Type} (p : Parser α) : Parser (List α) := do
  let a ← p
  let rest ← many p
  return a :: rest

def sepLoop {α : Type} (p : Parser α) (sep : Parser Unit) :
    Nat → Cursor → List α → Except Failure (List α × Cursor)
  | 0, c, acc => .ok (acc.reverse, c)
  | fuel + 1, c, acc =>
    match sep c with
    | .error f => if f.final then .error f else .ok (acc.reverse, c)
    | .ok ((), c1) =>
      match p c1 with
      | .error f => if f.final then .error f else .ok (acc.reverse, c)
      | .ok (a, c2) => sepLoop p sep fuel c2 (a :: acc)

def sepBy1 {α : Type} (p : Parser α) (sep : Parser Unit) : Parser (List α) := fun c =>
  match p c with
  | .error f => .error f
  | .ok (a, c1) => sepLoop p sep (c1.rest.length + 1) c1 [a]

def sepBy {α : Type} (p : Parser α) (sep : Parser Unit) : Parser (List α) := fun c =>
  match p c with
  | .error f => if f.final then .error f else .ok ([], c)
  | .ok (a, c1) => sepLoop p sep (c1.rest.length + 1) c1 [a]

end Parser

end Quorum.Toml
