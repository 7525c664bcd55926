import Quorum.Toml.Document
import Quorum.Toml.Failure

/-!
# Assembling a TOML document

The document is assembled line by line. Key-value pairs go into the *current* table: the root
until the first header, then the table that the last header opened. A header first puts the
current table in its place in the document, then opens the next one.

The rules on what may be written twice:
- a key may be given only once in a table;
- a header may reopen a table that was only made as the parent of an earlier header, and no other;
- a dotted key may walk only through tables made by dotted keys;
- `[[a]]` adds a table to the array of tables `a`, which must not be anything else.

A header walks through an array of tables into its last table. A table's place stretches from its
header to the end of its last value; the root's from the start of the text.
-/

namespace Quorum.Toml

/-- The document as assembled so far. -/
structure Builder where
  root : List (Key × Node) := []
  rootSpan : Option Span := none
  current : List (Key × Node) := []
  currentSpan : Option Span := some ⟨0, 0⟩
  currentPath : List Key := []
  currentIsArray : Bool := false

namespace Builder

/-- The table reached from `entries` through `path`, made where missing, changed by `f`; `f`
also learns whether that table was made by a dotted key. Tables made on the way are dotted
when `dotted` holds and parents of a header otherwise; a dotted key may only walk through tables
made on the way. `whole` is the full path, for messages. -/
def descend {β : Type} (dotted : Bool) (whole : List Key)
    (f : Bool → List (Key × Node) → Except Cause (List (Key × Node) × β)) :
    Nat → List Key → Bool → List (Key × Node) → Except Cause (List (Key × Node) × β)
  | _, [], isDotted, entries => f isDotted entries
  | i, k :: ks, _, entries =>
    let wrongType (n : Node) : Except Cause (List (Key × Node) × β) :=
      .error (.extendsNonTable ((whole.take (i + 1)).map (·.name)) n.typeName)
    match lookup entries k.name with
    | none => do
      let form := if dotted then TableForm.dotted else .parent
      let (inner, b) ← descend dotted whole f (i + 1) ks dotted []
      return (entries ++ [(k, .table inner form none)], b)
    | some (.table inner form span) =>
      if form.isInline then wrongType (.table inner form span)
      else if dotted && !form.isImplicit then .error (.duplicateKey k.name none)
      else do
        let (inner', b) ← descend dotted whole f (i + 1) ks form.isDotted inner
        return (replaceAt entries k.name (.table inner' form span), b)
    | some (.tables items span) =>
      match items.reverse with
      | .table inner form tspan :: earlier => do
        let (inner', b) ← descend dotted whole f (i + 1) ks form.isDotted inner
        return (replaceAt entries k.name
          (.tables ((.table inner' form tspan :: earlier).reverse) span), b)
      | _ => wrongType (.tables items span)
    | some other => wrongType other

def tablesSpan (items : List Node) : Option Span :=
  match items.head?.bind Node.span?, items.getLast?.bind Node.span? with
  | some first, some last => some ⟨first.start, last.stop⟩
  | _, _ => none

/-- The path of a header split into the path of its parent and its last key. -/
def splitLast (path : List Key) : List Key × Option Key :=
  (path.dropLast, path.getLast?)

def finalize (b : Builder) : Except Cause Builder := do
  let table := b.current
  let span := b.currentSpan
  let path := b.currentPath
  let b := { b with current := [], currentSpan := none, currentPath := [] }
  match splitLast path with
  | (_, none) => return { b with root := table, rootSpan := span }
  | (parentPath, some k) =>
    let parentNames := parentPath.map (·.name)
    let node := Node.table table .header span
    let (root, ()) ← descend false parentPath (fun _ es =>
      if b.currentIsArray then
        match lookup es k.name with
        | none => .ok (es ++ [(k, .tables [node] (tablesSpan [node]))], ())
        | some (.tables items _) =>
          let items := items ++ [node]
          .ok (replaceAt es k.name (.tables items (tablesSpan items)), ())
        | some _ => .error (.duplicateKey k.name (some parentNames))
      else
        match lookup es k.name with
        | none => .ok (es ++ [(k, node)], ())
        | some (.table _ form _) =>
          if form.isImplicit && !form.isInline then .ok (replaceAt es k.name node, ())
          else .error (.duplicateKey k.name (some parentNames))
        | some _ => .error (.duplicateKey k.name (some parentNames))) 0 parentPath false b.root
    return { b with root := root }

/-- Adds a key-value pair to the current table: `path` holds the keys before the last. -/
def addPair (b : Builder) (path : List Key) (k : Key) (v : Node) : Except Cause Builder := do
  let span := match b.currentSpan, v.span? with
    | some existing, some value => some ⟨existing.start, value.stop⟩
    | existing, _ => existing
  let tableNames := b.currentPath.map (·.name)
  let (current, ()) ← descend true path (fun isDotted es =>
    if isDotted == path.isEmpty then .error (.duplicateKey k.name none)
    else match lookup es k.name with
      | some _ => .error (.duplicateKey k.name (some tableNames))
      | none => .ok (es ++ [(k, v)], ())) 0 path false b.current
  return { b with current := current, currentSpan := span }

def openTable (b : Builder) (path : List Key) (span : Span) : Except Cause Builder := do
  let b ← b.finalize
  match splitLast path with
  | (_, none) => return b
  | (parentPath, some k) =>
    let parentNames := parentPath.map (·.name)
    let (root, reopened) ← descend false parentPath (fun _ es =>
      match lookup es k.name with
      | none => .ok (es, [])
      | some (.table inner .parent _) => .ok (eraseAt es k.name, inner)
      | some _ => .error (.duplicateKey k.name (some parentNames))) 0 parentPath false b.root
    return { b with root := root, current := reopened, currentSpan := some span,
                    currentPath := path, currentIsArray := false }

def openArrayTable (b : Builder) (path : List Key) (span : Span) : Except Cause Builder := do
  let b ← b.finalize
  match splitLast path with
  | (_, none) => return b
  | (parentPath, some k) =>
    let parentNames := parentPath.map (·.name)
    let (root, ()) ← descend false parentPath (fun _ es =>
      match lookup es k.name with
      | none => .ok (es ++ [(k, .tables [] none)], ())
      | some (.tables _ _) => .ok (es, ())
      | some _ => .error (.duplicateKey k.name (some parentNames))) 0 parentPath false b.root
    return { b with root := root, current := [], currentSpan := some span,
                    currentPath := path, currentIsArray := true }

def finish (b : Builder) : Except Cause Node := do
  let b ← b.finalize
  return .table b.root .header b.rootSpan

end Builder

end Quorum.Toml
