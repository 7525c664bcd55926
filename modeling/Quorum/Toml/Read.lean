import Quorum.Toml.Report
import Quorum.Decimal.Shortest
import Quorum.Text.Quoted
import Quorum.Schema

/-!
# Reading a TOML document into typed settings

Settings are read from the document tree by readers for texts, unsigned numbers, names from a
fixed list, lists, and records of named fields. A reader that refuses a value says what it found
and what it expected:

    invalid type: integer `5`, expected a string
    invalid value: integer `-1`, expected u64
    unknown variant `S3`, expected `s3` or `fs`
    missing field `id`
    duplicate field `keyring_backend`

A refusal points at the innermost value that has a place: the value being read, or, for a table
made on the way to another, the key it stands under. A record accepts its fields under their
names or aliases, in any order, skips unknown keys, and fills missing fields from defaults; it
may also be given as an array of its fields in order.
-/

namespace Quorum.Toml

/-- A refusal met while reading a document into settings. -/
structure Refusal where
  message : String
  span : Option Span
  deriving Repr

def Refusal.orAt (r : Refusal) (s : Option Span) : Refusal :=
  match r.span with
  | some _ => r
  | none => { r with span := s }

/-- A refusal of a document as shown to the user, its place in bytes of `source`. -/
def Refusal.toError (r : Refusal) (source : String) : Error :=
  let chars := source.toList
  ⟨r.message, r.span.map fun s => (byteOffset chars s.start, byteOffset chars s.stop)⟩

abbrev Reading (α : Type) := Except Refusal α

def within {α : Type} (n : Node) (r : Reading α) : Reading α :=
  match r with
  | .error e => .error (e.orAt n.span?)
  | ok => ok

/-- A float as a message shows it: all digits in place, and a decimal point always. -/
def floatText (bits : UInt64) : String :=
  let t := Decimal.ofBitsPositional bits
  let finite := bits.toNat % Nat.pow 2 63 < 0x7FF0000000000000
  if finite && !t.contains '.' then t ++ ".0" else t

def unexpected : Node → String
  | .string s _ => "string " ++ Text.quote s
  | .integer n _ => "integer `" ++ toString n ++ "`"
  | .float bits _ => "floating point `" ++ floatText bits ++ "`"
  | .boolean b _ => "boolean `" ++ (if b then "true" else "false") ++ "`"
  | .datetime _ | .table .. => "map"
  | .array .. | .tables .. => "sequence"

def invalidType (n : Node) (expected : String) : Refusal :=
  ⟨"invalid type: " ++ unexpected n ++ ", expected " ++ expected, none⟩

def readText (expected : String) (n : Node) : Reading String :=
  within n <| match n with
  | .string s _ => .ok s
  | _ => .error (invalidType n expected)

def readUnsigned (name : String) (n : Node) : Reading Nat :=
  within n <| match n with
  | .integer i _ =>
    if 0 ≤ i then .ok i.toNat
    else .error ⟨"invalid value: integer `" ++ toString i ++ "`, expected " ++ name, none⟩
  | _ => .error (invalidType n name)

def oneOf (names : List String) : String :=
  match names with
  | [a] => "`" ++ a ++ "`"
  | [a, b] => "`" ++ a ++ "` or `" ++ b ++ "`"
  | _ => "one of " ++ ", ".intercalate (names.map fun a => "`" ++ a ++ "`")

def unknownVariant (name : String) (names : List String) : String :=
  "unknown variant `" ++ name ++ "`, expected " ++ oneOf names

/-- Reads the empty value that a name given as a table key must have. A non-empty inline array
is refused as a table is, and only an array of tables as an array. -/
def readUnit (v : Node) : Reading Unit :=
  match v with
  | .tables items span =>
    if items.isEmpty then .ok () else .error ⟨"expected empty array", span⟩
  | .array items span =>
    if items.isEmpty then .ok () else .error ⟨"expected empty table", some span⟩
  | .table entries _ span =>
    if entries.isEmpty then .ok () else .error ⟨"expected empty table", span⟩
  | other => .error ⟨"expected table, found " ++ other.typeName, other.span?⟩

/-- Reads one of a fixed list of names: as a text, or as the only key of a table. -/
def readName (names : List String) (n : Node) : Reading String :=
  within n <| match n with
  | .string s _ => if names.contains s then .ok s else .error ⟨unknownVariant s names, none⟩
  | .table [] _ span => .error ⟨"wanted exactly 1 element, found 0 elements", span⟩
  | .table [(k, v)] _ _ =>
    if names.contains k.name then do readUnit v; return k.name
    else .error ⟨unknownVariant k.name names, some k.span⟩
  | .table _ _ span => .error ⟨"wanted exactly 1 element, more than 1 element", span⟩
  | _ => .error ⟨"wanted string or table", n.span?⟩

def readList {α : Type} (item : Node → Reading α) (n : Node) : Reading (List α) :=
  within n <| match n with
  | .array items _ | .tables items _ => items.mapM item
  | _ => .error (invalidType n "a sequence")

def missingField {σ : Type} (fields : List (Field Node Refusal σ)) (acc : σ) : Reading σ :=
  match fields.find? (fun f => f.required && !f.present acc) with
  | some f => .error ⟨"missing field `" ++ f.name ++ "`", none⟩
  | none => .ok acc

def readFieldItems {σ : Type} (expecting : String) :
    List (Field Node Refusal σ) → List Node → Nat → σ → Reading σ
  | [], _, _, acc => .ok acc
  | f :: fs, [], i, acc =>
    if f.required then .error ⟨"invalid length " ++ toString i ++ ", expected " ++ expecting, none⟩
    else readFieldItems expecting fs [] (i + 1) acc
  | f :: fs, item :: items, i, acc => do
    let acc ← f.read acc item
    readFieldItems expecting fs items (i + 1) acc

/-- Reads a record named `name` whose fields are `fields`, starting from `empty`. -/
def readRecord {σ : Type} (name : String) (fields : List (Field Node Refusal σ)) (empty : σ)
    (n : Node) : Reading σ :=
  within n <| match n with
  | .table entries _ _ => do
    let acc ← entries.foldlM (fun acc (k, v) =>
      match fields.find? (·.accepts k.name) with
      | none => .ok acc
      | some f =>
        if f.present acc then .error ⟨"duplicate field `" ++ f.name ++ "`", none⟩
        else match f.read acc v with
          | .ok acc' => .ok acc'
          | .error e => .error (e.orAt (v.span?.orElse fun _ => some k.span))) empty
    missingField fields acc
  | .datetime _ => missingField fields empty
  | .array items _ | .tables items _ =>
    let count := fields.length
    let expecting := "struct " ++ name ++ " with " ++ toString count ++
      (if count = 1 then " element" else " elements")
    readFieldItems expecting fields items 0 empty
  | _ => .error (invalidType n ("struct " ++ name))

/-- The readers of a TOML document: records visit their entries in the order of the document. -/
def decoder : Decoder Node Refusal where
  text := readText
  unsigned := readUnsigned
  choice := fun _ names => readName names
  list := readList
  record := readRecord

end Quorum.Toml
