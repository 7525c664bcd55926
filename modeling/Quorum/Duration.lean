/-!
# Durations

A span of time counted in nanoseconds, and its text: the largest unit among seconds,
milliseconds, microseconds and nanoseconds in which the whole part is not zero, with the
fraction written out to the last digit that is not zero (`60s`, `1.5s`, `40ms`, `0ns`).
-/

namespace Quorum

/-- A span of time, counted in nanoseconds. -/
structure Duration where
  nanos : Nat
  deriving DecidableEq, Repr

namespace Duration

def ofMillis (ms : Nat) : Duration := ⟨ms * 1000000⟩

def ofSecs (s : Nat) : Duration := ⟨s * 1000000000⟩

/-- The digits of `frac`, a fraction of `places` decimal places, without trailing zeros. -/
def fractionDigits (frac places : Nat) : String :=
  let padded := String.ofList (List.replicate (places - (Nat.repr frac).length) '0') ++ Nat.repr frac
  String.ofList (padded.toList.reverse.dropWhile (· = '0')).reverse

/-- A whole part and a fraction of `places` decimal places, the point left out for a zero
fraction. -/
def decimal (whole frac places : Nat) : String :=
  if frac = 0 then Nat.repr whole else Nat.repr whole ++ "." ++ fractionDigits frac places

def render (d : Duration) : String :=
  let n := d.nanos
  if n ≥ 1000000000 then decimal (n / 1000000000) (n % 1000000000) 9 ++ "s"
  else if n ≥ 1000000 then decimal (n / 1000000) (n % 1000000) 6 ++ "ms"
  else if n ≥ 1000 then decimal (n / 1000) (n % 1000) 3 ++ "µs"
  else Nat.repr n ++ "ns"

end Duration

end Quorum
