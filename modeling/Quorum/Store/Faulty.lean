import Quorum.Store.Call

/-!
# Stores with planned failures

A store wrapped so that chosen calls fail, to rehearse how operations behave when the backend
misbehaves: listings that fail, removals that start failing after a number of successes or that
report success and remove nothing, writes that start failing after a number of successes, and
reads of chosen keys that fail. A check of existence always reaches the wrapped store.
-/

namespace Quorum

/-- The failures planned for a store. -/
structure FaultPlan where
  failListing : Bool := false
  /-- The number of removals that still succeed before every one fails, if limited. -/
  deletesLeft : Option Nat := none
  stickyDeletes : Bool := false
  /-- The number of writes that still succeed before every one fails, if limited. -/
  putsLeft : Option Nat := none
  failingGets : List String := []
  deriving DecidableEq, Repr

namespace FaultPlan

def failure {α : Type} (context text : String) : Except StoreError α :=
  .error (.backend context (.other text))

/-- Takes one from a limit: `none` when the limit is used up, else the limit afterwards. -/
def spend : Option Nat → Option (Option Nat)
  | none => some none
  | some 0 => none
  | some (n + 1) => some (some n)

def answer {σ : Type} (inner : StoreAnswer σ) : StoreAnswer (FaultPlan × σ)
  | .get p, (f, s) =>
    if f.failingGets.contains p then (failure ("reading " ++ p) "access denied", (f, s))
    else let (x, s') := inner (.get p) s; (x, (f, s'))
  | .put p d, (f, s) =>
    match spend f.putsLeft with
    | none => (failure ("writing " ++ p) "quota exceeded", (f, s))
    | some left => let (x, s') := inner (.put p d) s; (x, ({ f with putsLeft := left }, s'))
  | .listAll, (f, s) =>
    if f.failListing then (failure "listing bucket" "connection refused", (f, s))
    else let (x, s') := inner .listAll s; (x, (f, s'))
  | .listPrefix pre, (f, s) =>
    if f.failListing then (failure "listing bucket" "connection refused", (f, s))
    else let (x, s') := inner (.listPrefix pre) s; (x, (f, s'))
  | .delete p, (f, s) =>
    match spend f.deletesLeft with
    | none => (failure ("deleting " ++ p) "access denied", (f, s))
    | some left =>
      let f' := { f with deletesLeft := left }
      if f.stickyDeletes then (.ok (), (f', s))
      else let (x, s') := inner (.delete p) s; (x, (f', s'))
  | .contains p, (f, s) => let (x, s') := inner (.contains p) s; (x, (f, s'))

end FaultPlan

end Quorum
