import Quorum.Numeral

/-!
# JSON values

A JSON document as a tree. A number keeps the kind it was read as: a natural number below
`2^64`, a negative integer not below `-2^63`, or else a double (kept as its bits). An object keeps
its members sorted by key, each key once: a later member replaces an earlier one of the same key.

A pointer such as `/auth_info/fee/amount/0/denom` walks the tree one step per token: a member of
an object by key, an item of an array by a canonical decimal index.
-/

namespace Quorum.Json

/-- A JSON number, as it was read. -/
inductive Number where
  | nat (n : Nat)
  | neg (i : Int)
  | double (bits : UInt64)
  deriving DecidableEq, Repr

/-- A JSON value. -/
inductive Value where
  | null
  | bool (b : Bool)
  | number (n : Number)
  | string (s : String)
  | array (items : List Value)
  | object (members : List (String × Value))
  deriving Repr, Inhabited

namespace Value

/-- Members sorted by key with `(k, v)` put in, replacing a member of key `k`. -/
def insertMember (k : String) (v : Value) : List (String × Value) → List (String × Value)
  | [] => [(k, v)]
  | (k', v') :: rest =>
    if k < k' then (k, v) :: (k', v') :: rest
    else if k = k' then (k, v) :: rest
    else (k', v') :: insertMember k v rest

def get? (v : Value) (k : String) : Option Value :=
  match v with
  | .object ms => (ms.find? (·.1 == k)).map (·.2)
  | _ => none

def asString? : Value → Option String
  | .string s => some s
  | _ => none

def asNat? : Value → Option Nat
  | .number (.nat n) => some n
  | _ => none

def index? (t : String) : Option Nat :=
  match t.toList with
  | '+' :: _ => none
  | '0' :: _ :: _ => none
  | _ => match Numeral.parseU64 t with
    | .ok n => some n.toNat
    | .error _ => none

/-- The characters of a pointer token with `~1` read as `/` and `~0` as `~`, left to right. -/
def unescapeChars : List Char → List Char
  | '~' :: '1' :: rest => '/' :: unescapeChars rest
  | '~' :: '0' :: rest => '~' :: unescapeChars rest
  | c :: rest => c :: unescapeChars rest
  | [] => []

def unescapeToken (t : String) : String :=
  String.ofList (unescapeChars t.toList)

def step? (v : Value) (token : String) : Option Value :=
  match v with
  | .object _ => v.get? token
  | .array items => (index? token).bind (fun i => items[i]?)
  | _ => none

/-- The value a pointer leads to. The empty pointer is the value itself; any other starts
with `/`. -/
def pointer? (v : Value) (p : String) : Option Value :=
  if p.isEmpty then some v
  else match p.toList.splitOn '/' with
    | [] :: tokens => tokens.foldlM (fun cur t => cur.step? (unescapeToken (String.ofList t))) v
    | _ => none

end Value

end Quorum.Json
