import Quorum.Store.Blobs
import Quorum.Store.Directory
import Quorum.Store.Faulty
import Quorum.Chain.Scripted
import Quorum.Chain.Binary
import Quorum.Host.Machine

/-!
# Rehearsals

Running operations of the coordinator against a store that is simulated in full, with planned
failures, and a chain. The store is held in memory or kept as files under a root directory. The
chain is scripted, recording every call it receives, or is the chain's command line client
running on a simulated machine, whose stand-in node records every run.
-/

namespace Quorum

/-- The store of a rehearsal. -/
inductive Backing where
  | memory (b : Blobs)
  | files (root : List String) (t : FileTree)

namespace Backing

def answer : StoreAnswer Backing
  | c, .memory b => let (x, b') := Blobs.answer c b; (x, .memory b')
  | c, .files root t => let (x, t') := Directory.answer root c t; (x, .files root t')

def objects (b : Backing) : List (String × ByteArray) :=
  match answer .listAll b with
  | (.ok keys, _) => keys.filterMap fun k =>
    match answer (.get k) b with
    | (.ok (some d), _) => some (k, d)
    | _ => none
  | (.error _, _) => []

/-- A store kept as files under a directory that does not exist yet, whose parent does. -/
def freshDirectory : Backing :=
  .files ["work", "store"] ⟨(∅ : Std.ExtTreeMap (List String) Node compare).insert ["work"] .dir⟩

def waitUntilAbsent (path : String) (timeout interval : Duration) (b : Backing) :
    Except StoreError Unit × Backing :=
  (Quorum.waitUntilAbsent (m := StateM Backing) (fun p => fun b => answer (.contains p) b)
    path timeout interval).run b

end Backing

/-- The chain of a rehearsal. -/
inductive ChainSide where
  | scripted (script : ScriptedChain)
  | client (binary : ChainBinary) (machine : Machine)

/-- The world of a rehearsal. -/
structure Rehearsal where
  backing : Backing
  faults : FaultPlan := {}
  chain : ChainSide := .scripted {}
  calls : List ChainCall := []

namespace Rehearsal

def answer : (r : Request) → Rehearsal → r.Reply × Rehearsal
  | .store c, w =>
    let (x, (f, b)) := FaultPlan.answer Backing.answer c (w.faults, w.backing)
    (x, { w with faults := f, backing := b })
  | .chain c, w =>
    match w.chain with
    | .scripted script => (script.answer c, { w with calls := w.calls ++ [c] })
    | .client b m =>
      match Program.run Machine.answer (b.serve c) m with
      | (.ok x, m') => (x, { w with chain := .client b m' })
      | (.error d, m') => (.error (.io (.other d.message)), { w with chain := .client b m' })

/-- Runs an operation: its value or fault, or the defect that stopped it, and the world after. -/
def perform {α : Type} (w : Rehearsal) (op : Op α) : Except Defect (Except Fault α) × Rehearsal :=
  Program.run (I := Coordination) answer op.run w

end Rehearsal

end Quorum
