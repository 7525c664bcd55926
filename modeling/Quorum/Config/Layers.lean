import Quorum.Schema
import Quorum.Toml.Document
import Quorum.Toml.Read
import Quorum.Text.Quoted

/-!
# Settings in layers

Settings are gathered from two layers: a TOML file, then the environment variables whose names
start with `COSIGN_`, in any case.

Every value remembers the layer it came from, so that a refusal names the setting as that layer
spells it:

    invalid type: found string "x", expected u64 for key "default.default_gas" in config.toml
      TOML file
    invalid type: found float `1.5`, expected u64 for key "TIMEOUTS.DELETE_SECS" in `COSIGN_`
      environment variable(s)

The tables hold their keys in sorted order, and records visit their entries in that order.
-/

namespace Quorum

/-- The layer a setting came from. -/
inductive Layer where
  | file (shown : String)
  | env
  deriving DecidableEq, Repr

/-- A value of layered settings, with the layer it came from; only the root table has none. -/
inductive Setting where
  | text (s : String) (layer : Option Layer)
  | unsigned (n : Nat) (layer : Option Layer)
  | signed (n : Int) (layer : Option Layer)
  | float (bits : UInt64) (layer : Option Layer)
  | bool (b : Bool) (layer : Option Layer)
  | list (items : List Setting) (layer : Option Layer)
  | table (entries : List (String × Setting)) (layer : Option Layer)
  deriving Repr

/-- A refusal of layered settings: its sentence, the keys that lead to the value refused, and the
layer that value came from. -/
structure SettingError where
  message : String
  path : List String := []
  layer : Option Layer := none
  deriving Repr

namespace SettingError

/-- The refusal, seen from the table that holds the refused value under `key`. -/
def under (e : SettingError) (key : String) : SettingError :=
  { e with path := key :: e.path }

def blame (e : SettingError) (l : Option Layer) : SettingError :=
  if e.layer.isNone then { e with layer := l } else e

def keyName (e : SettingError) : Option Layer → String
  | some (.file _) => "default." ++ ".".intercalate e.path
  | _ => ".".intercalate (e.path.map String.toUpper)

/-- The refusal as shown: its sentence, the setting refused, and the layer it came from. -/
def render (e : SettingError) : String :=
  let key := if e.path.isEmpty || e.layer.isNone then ""
    else " for key " ++ Text.quote (e.keyName e.layer)
  let place := match e.layer with
    | some (.file shown) => " in " ++ shown ++ " TOML file"
    | some .env => " in `COSIGN_` environment variable(s)"
    | none => ""
  e.message ++ key ++ place

end SettingError

namespace Setting

def layer : Setting → Option Layer
  | .text _ l | .unsigned _ l | .signed _ l | .float _ l | .bool _ l | .list _ l | .table _ l => l

def found : Setting → String
  | .text s _ => "string " ++ Text.quote s
  | .unsigned n _ => "unsigned int `" ++ toString n ++ "`"
  | .signed n _ => "signed int `" ++ toString n ++ "`"
  | .float bits _ => "float `" ++ Decimal.ofBitsPositional bits ++ "`"
  | .bool b _ => "bool " ++ (if b then "true" else "false")
  | .list .. => "sequence"
  | .table .. => "map"

def refuse (v : Setting) (message : String) : SettingError :=
  { message := message, layer := v.layer }

def invalidType (v : Setting) (expected : String) : SettingError :=
  v.refuse ("invalid type: found " ++ v.found ++ ", expected " ++ expected)

def invalidValue (v : Setting) (expected : String) : SettingError :=
  v.refuse ("invalid value " ++ v.found ++ ", expected " ++ expected)

/-- Inserts an entry into a table kept sorted by key, replacing an entry of the same key. -/
def put (entries : List (String × Setting)) (key : String) (v : Setting) :
    List (String × Setting) :=
  match entries with
  | [] => [(key, v)]
  | (k, x) :: rest =>
    if key = k then (key, v) :: rest
    else if key < k then (key, v) :: (k, x) :: rest
    else (k, x) :: put rest key v

/-- Sets the value at a path of keys in a table, making the tables on the way where they are
missing or are not tables. -/
def assign (entries : List (String × Setting)) :
    List String → Setting → List (String × Setting)
  | [], _ => entries
  | [k], v => put entries k v
  | k :: rest, v =>
    match entries.lookup k with
    | some (.table inner l) => put entries k (.table (assign inner rest v) l)
    | _ => put entries k (.table (assign [] rest v) (some .env))

mutual

/-- The value of a TOML document node, from the file layer `l`. A date or time is a table of a
single private key, so that only records may read it. -/
def ofNode (l : Layer) : Toml.Node → Setting
  | .string s _ => .text s (some l)
  | .integer n _ => .signed n (some l)
  | .float bits _ => .float bits (some l)
  | .boolean b _ => .bool b (some l)
  | .datetime _ => .table [("$__toml_private_datetime", .text "" (some l))] (some l)
  | .array items _ => .list (ofNodes l items) (some l)
  | .tables items _ => .list (ofNodes l items) (some l)
  | .table entries _ _ => .table (ofEntries l entries) (some l)

def ofNodes (l : Layer) : List Toml.Node → List Setting
  | [] => []
  | n :: ns => ofNode l n :: ofNodes l ns

def ofEntries (l : Layer) : List (Toml.Key × Toml.Node) → List (String × Setting)
  | [] => []
  | (k, n) :: es => put (ofEntries l es) k.name (ofNode l n)

end

/-- The root table of a TOML document read from the file shown as `shown`. -/
def ofDocument (shown : String) : Toml.Node → Setting
  | .table entries _ _ => .table (ofEntries (.file shown) entries) none
  | _ => .table [] none

end Setting

end Quorum
