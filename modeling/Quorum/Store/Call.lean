import Quorum.Store.Error

/-!
# Calls to a blob store

A blob store is a flat namespace of objects addressed by slash-delimited keys. It offers no
transactions and no locks: a caller reads, writes, lists and removes single objects, and every
call may fail on its own. A call and the reply it expects are data here, so that a store is any
way of answering them and an operation over a store is a program of such calls.
-/

namespace Quorum

/-- A single call to a blob store. -/
inductive StoreCall where
  | get (path : String)
  | put (path : String) (data : ByteArray)
  | listAll
  | listPrefix (pre : String)
  | delete (path : String)
  | contains (path : String)

def StoreCall.Reply : StoreCall → Type
  | .get _ => Option ByteArray
  | .put _ _ => Unit
  | .listAll => List String
  | .listPrefix _ => List String
  | .delete _ => Unit
  | .contains _ => Bool

/-- How a store answers a call: a reply or an error, and the store afterwards. -/
abbrev StoreAnswer (σ : Type) := (c : StoreCall) → σ → Except StoreError c.Reply × σ

/-- The number of checks that a wait of `timeout` makes when it checks every `interval`: one at
the start and one after each interval that has ended by the deadline. A zero interval is taken as
a single wait until the deadline. -/
def checksWithin (timeout interval : Duration) : Nat :=
  if interval.nanos = 0 then 2 else timeout.nanos / interval.nanos + 1

/-- Waits for the object at `path` to disappear, asking `contains` up to `checks` times; the
object counts as gone at the first check that does not find it, and the wait fails with a
timeout after `timeout` once the last check still finds it. -/
def waitWith {m : Type → Type} [Monad m] (contains : String → m (Except StoreError Bool))
    (path : String) (timeout : Duration) : Nat → m (Except StoreError Unit)
  | 0 => pure (.error (.timeout path timeout))
  | checks + 1 => do
    match ← contains path with
    | .error e => pure (.error e)
    | .ok false => pure (.ok ())
    | .ok true => waitWith contains path timeout checks

/-- Waits for the object at `path` to disappear, checking every `interval` for at most
`timeout`. -/
def waitUntilAbsent {m : Type → Type} [Monad m] (contains : String → m (Except StoreError Bool))
    (path : String) (timeout interval : Duration) : m (Except StoreError Unit) :=
  waitWith contains path timeout (checksWithin timeout interval)

end Quorum
