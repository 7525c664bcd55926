import Quorum.Config.Layers
import Quorum.Config.Read

/-!
# Reading settings from layers

The readers of layered values: texts, unsigned numbers, names from a fixed list, lists and
records. A refusal says what was found and what was expected, and names the keys that lead to the
value refused; it is blamed on the layer of the innermost value that has one.

    invalid type: found signed int `5`, expected a string
    invalid value signed int `-1`, expected u64
    unknown variant: found `S3`, expected ``s3` or `fs``
    missing field `id`

A name from a fixed list is given as a text, or as the only key of a table; a number never
names one. A record visits
its entries in the order of their keys, skips unknown keys, and fills missing fields from
defaults; it may also be given as a list of its fields in order.
-/

namespace Quorum

namespace Setting

abbrev Reading (α : Type) := Except SettingError α

/-- Reads from `v`: a refusal that names no layer is blamed on the layer of `v`. -/
def within {α : Type} (v : Setting) (r : Reading α) : Reading α :=
  r.mapError (·.blame v.layer)

def readText (expected : String) (v : Setting) : Reading String :=
  match v with
  | .text s _ => .ok s
  | _ => .error (v.invalidType expected)

def readUnsigned (name : String) (v : Setting) : Reading Nat :=
  match v with
  | .unsigned n _ => .ok n
  | .signed n _ => if 0 ≤ n then .ok n.toNat else .error (v.invalidValue name)
  | _ => .error (v.invalidType name)

def unknownVariant (v : Setting) (name : String) (names : List String) : SettingError :=
  v.refuse ("unknown variant: found `" ++ name ++ "`, expected `" ++ Toml.oneOf names ++ "`")

/-- Reads one of a fixed list of names, for a choice called `typeName`: as a text, or as the
first key of a table, whose value must then be empty, which no setting is; an unknown key is
refused under its own name. -/
def readChoice (typeName : String) (names : List String) (v : Setting) : Reading String :=
  within v <| match v with
  | .text s _ => if names.contains s then .ok s else .error (unknownVariant v s names)
  | .table [] _ => .error (v.refuse "invalid type: found map, expected enum")
  | .table ((k, x) :: _) _ =>
    if names.contains k then .error (((x.invalidType "unit").blame x.layer).under k)
    else .error ((unknownVariant v k names).under k)
  | _ => .error (v.invalidType ("enum " ++ typeName))

/-- Reads the items of a list, from place `i`; a refusal names the place of its item. -/
def readItems {α : Type} (item : Setting → Reading α) :
    List Setting → Nat → Reading (List α)
  | [], _ => .ok []
  | x :: xs, i => do
    let a ← (item x).mapError (·.under (toString i))
    let rest ← readItems item xs (i + 1)
    return a :: rest

def readList {α : Type} (item : Setting → Reading α) (v : Setting) : Reading (List α) :=
  within v <| match v with
  | .list items _ => readItems item items 0
  | _ => .error (v.invalidType "a sequence")

/-- Reads the fields of a record from the items of a list, in order, from place `i`. -/
def readFieldItems {σ : Type} (expecting : String) :
    List (Field Setting SettingError σ) → List Setting → Nat → σ → Reading σ
  | [], _, _, acc => .ok acc
  | f :: fs, [], i, acc =>
    if f.required then
      .error { message := "invalid length " ++ toString i ++ ", expected " ++ expecting }
    else readFieldItems expecting fs [] (i + 1) acc
  | f :: fs, item :: items, i, acc => do
    let acc ← (f.read acc item).mapError (·.under (toString i))
    readFieldItems expecting fs items (i + 1) acc

/-- Reads a record named `name` whose fields are `fields`, starting from `empty`. -/
def readRecord {σ : Type} (name : String) (fields : List (Field Setting SettingError σ))
    (empty : σ) (v : Setting) : Reading σ :=
  within v <| match v with
  | .table entries _ => do
    let acc ← entries.foldlM (fun acc (k, x) =>
      match fields.find? (·.accepts k) with
      | none => .ok acc
      | some f =>
        if f.present acc then .error { message := "duplicate field `" ++ f.name ++ "`" }
        else (f.read acc x).mapError (·.under k)) empty
    match fields.find? (fun f => f.required && !f.present acc) with
    | some f => .error { message := "missing field `" ++ f.name ++ "`" }
    | none => .ok acc
  | .list items _ =>
    let count := fields.length
    let expecting := "struct " ++ name ++ " with " ++ toString count ++
      (if count = 1 then " element" else " elements")
    readFieldItems expecting fields items 0 empty
  | _ => .error (v.invalidType ("struct " ++ name))

def decoder : Decoder Setting SettingError where
  text := fun expected v => within v (readText expected v)
  unsigned := fun name v => within v (readUnsigned name v)
  choice := readChoice
  list := readList
  record := readRecord

end Setting

namespace Config

def ofLayers (root : Setting) : Except SettingError Config :=
  readDocument Setting.decoder root

end Config

end Quorum
