import Quorum.Fault

/-!
# Store errors

The failures of a blob store: a key that the store cannot hold, a failure of the backend that
keeps the objects, and an object that does not disappear within a wait. For the coordinator, an
unfit key is a classification error, a failing backend makes the store unavailable, and a wait
that runs out is a timeout.
-/

namespace Quorum

/-- A failure of a blob store. -/
inductive StoreError where
  | invalidKey (key : String)
  | backend (context : String) (source : IoError)
  | timeout (path : String) (after : Duration)
  deriving Repr

namespace StoreError

def kind : StoreError → String
  | .invalidKey _ => "InvalidKey"
  | .backend _ _ => "Backend"
  | .timeout _ _ => "Timeout"

def message : StoreError → String
  | .invalidKey k => "invalid key: " ++ k
  | .backend c s => "backend error while " ++ c ++ ": " ++ s.message
  | .timeout p after => p ++ " still present after " ++ after.render

def toFault : StoreError → Fault
  | .invalidKey k => .classification ("invalid store key " ++ Text.quote k)
  | .backend c s => .storeUnavailable c s
  | .timeout p after => .timeout ("waiting for " ++ p ++ " to disappear") after

end StoreError

end Quorum
