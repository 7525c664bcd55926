/-!
# Shortest decimal text of a double

A finite double is `m · 2^q` for integers `m` and `q`. The doubles that round to it form an
interval around it: halfway to each neighbour, both ends included when `m` is even. Its shortest
decimal is the decimal with the fewest significant digits inside that interval; of two such
decimals with the same number of digits, the one nearer the double.

For each count of digits from 1 to 17 the search tests the two decimals of that many digits that
enclose the double: one of them lies in the interval whenever any decimal of that many digits
does. All comparisons are exact, in natural numbers.

The text puts the decimal point inside the digits when the point falls within 16 places of the
first digit, and otherwise writes one digit before the point and a signed exponent.
-/

namespace Quorum.Decimal

/-- A positive rational `num · 2^two · 10^ten`. -/
structure Scaled where
  num : Nat
  two : Int
  ten : Int

def Scaled.compare (a b : Scaled) : Ordering :=
  let t := min a.two b.two
  let d := min a.ten b.ten
  let l := a.num * Nat.pow 2 (a.two - t).toNat * Nat.pow 10 (a.ten - d).toNat
  let r := b.num * Nat.pow 2 (b.two - t).toNat * Nat.pow 10 (b.ten - d).toNat
  Ord.compare l r

def floorQuotient (m : Nat) (q k : Int) : Nat :=
  let num := m * Nat.pow 2 q.toNat * Nat.pow 10 (-k).toNat
  let den := Nat.pow 2 (-q).toNat * Nat.pow 10 k.toNat
  num / den

/-- A finite positive double as `m · 2^q`. At the bottom of a binade the gap to the next
smaller double is half as wide as the gap above, which `narrowBelow` records. -/
structure Binary where
  m : Nat
  q : Int
  narrowBelow : Bool

def Binary.ofBits (bits : UInt64) : Binary :=
  let frac := bits.toNat % Nat.pow 2 52
  let expField : Nat := (bits.toNat / Nat.pow 2 52) % Nat.pow 2 11
  if expField = 0 then ⟨frac, -1074, false⟩
  else ⟨frac + Nat.pow 2 52, (expField : Int) - 1075, frac = 0 && expField > 1⟩

def Binary.low (b : Binary) : Scaled :=
  if b.narrowBelow then ⟨4 * b.m - 1, b.q - 2, 0⟩ else ⟨2 * b.m - 1, b.q - 1, 0⟩

def Binary.high (b : Binary) : Scaled :=
  ⟨2 * b.m + 1, b.q - 1, 0⟩

def Binary.admits (b : Binary) (c : Nat) (k : Int) : Bool :=
  let x : Scaled := ⟨c, 0, k⟩
  let inclusive := b.m % 2 = 0
  let aboveLow := match x.compare b.low with
    | .gt => true
    | .eq => inclusive
    | .lt => false
  let belowHigh := match x.compare b.high with
    | .lt => true
    | .eq => inclusive
    | .gt => false
  aboveLow && belowHigh

def digitCount (n : Nat) : Nat := (Nat.repr n).length

/-- The decimal exponent of the leading digit of `m · 2^q`: the `E` with `10^E ≤ m · 2^q`
and `m · 2^q < 10^(E+1)`. -/
def Binary.leadExponent (b : Binary) : Int :=
  let est : Int := (digitCount b.m : Int) - 1 + (b.q * 30103) / 100000
  let x : Scaled := ⟨b.m, b.q, 0⟩
  -- the estimate is off by at most two; step it to the exact value
  let e1 := if x.compare ⟨1, 0, est⟩ == .lt then est - 1 else est
  let e2 := if x.compare ⟨1, 0, e1⟩ == .lt then e1 - 1 else e1
  let e3 := if x.compare ⟨1, 0, e2 + 1⟩ != .lt then e2 + 1 else e2
  if x.compare ⟨1, 0, e3 + 1⟩ != .lt then e3 + 1 else e3

def normalize (c : Nat) (k : Int) (fuel : Nat) : Nat × Int :=
  match fuel with
  | 0 => (c, k)
  | fuel + 1 => if c ≠ 0 && c % 10 = 0 then normalize (c / 10) (k + 1) fuel else (c, k)

/-- The shortest decimal `c · 10^k` in the rounding interval of `b`, trailing zeros dropped. -/
def Binary.shortest (b : Binary) : Nat × Int :=
  let lead := b.leadExponent
  let rec search : Nat → Nat → Nat × Int
    | 0, _ => (b.m, 0)
    | fuel + 1, n =>
      let k := lead - n + 1
      let lo := floorQuotient b.m b.q k
      let hi := lo + 1
      let loOk := b.admits lo k
      let hiOk := b.admits hi k
      if loOk && hiOk then
        -- the nearer one; `2x` against `lo + hi`
        match (Scaled.mk (2 * b.m) b.q 0).compare ⟨lo + hi, 0, k⟩ with
        | .lt => normalize lo k 20
        | .gt => normalize hi k 20
        | .eq => if lo % 2 = 0 then normalize lo k 20 else normalize hi k 20
      else if loOk then normalize lo k 20
      else if hiOk then normalize hi k 20
      else search fuel (n + 1)
  search 17 1

/-- The text of a decimal `c · 10^k` with `c` positive and without trailing zeros. -/
def render (c : Nat) (k : Int) : String :=
  let ds := Nat.repr c
  let n : Int := ds.length
  -- the decimal point stands `point` places after the first digit
  let point := n + k
  if 0 ≤ k ∧ point ≤ 16 then
    ds ++ String.ofList (List.replicate k.toNat '0') ++ ".0"
  else if 0 < point ∧ point ≤ 16 then
    String.ofList (ds.toList.take point.toNat) ++ "." ++ String.ofList (ds.toList.drop point.toNat)
  else if -5 < point ∧ point ≤ 0 then
    "0." ++ String.ofList (List.replicate (-point).toNat '0') ++ ds
  else
    let e := point - 1
    let expText := if e < 0 then "-" ++ Nat.repr (-e).toNat else "+" ++ Nat.repr e.toNat
    let mantissa := match ds.toList with
      | [d] => d.toString
      | d :: rest => d.toString ++ "." ++ String.ofList rest
      | [] => "0"
    mantissa ++ "e" ++ expText

def ofBits (bits : UInt64) : String :=
  let negative := bits.toNat ≥ Nat.pow 2 63
  let magnitude := bits.toNat % Nat.pow 2 63
  let sign := if negative then "-" else ""
  if magnitude = 0 then sign ++ "0.0"
  else
    let (c, k) := (Binary.ofBits magnitude.toUInt64).shortest
    sign ++ render c k

/-- The text of a decimal `c · 10^k` with all its digits in place and no exponent: zeros pad
the digits up to the point, or between the point and the digits. A whole number has no point. -/
def renderPositional (c : Nat) (k : Int) : String :=
  let ds := Nat.repr c
  let point : Int := (ds.length : Int) + k
  if 0 ≤ k then ds ++ String.ofList (List.replicate k.toNat '0')
  else if 0 < point then
    String.ofList (ds.toList.take point.toNat) ++ "." ++ String.ofList (ds.toList.drop point.toNat)
  else "0." ++ String.ofList (List.replicate (-point).toNat '0') ++ ds

/-- The shortest text of a double without an exponent: `inf`, `-inf` and `NaN` for the values
that are not finite. -/
def ofBitsPositional (bits : UInt64) : String :=
  let negative := bits.toNat ≥ Nat.pow 2 63
  let magnitude := bits.toNat % Nat.pow 2 63
  let sign := if negative then "-" else ""
  if magnitude ≥ 0x7FF0000000000000 then
    if magnitude = 0x7FF0000000000000 then sign ++ "inf" else "NaN"
  else if magnitude = 0 then sign ++ "0"
  else
    let (c, k) := (Binary.ofBits magnitude.toUInt64).shortest
    sign ++ renderPositional c k

end Quorum.Decimal
