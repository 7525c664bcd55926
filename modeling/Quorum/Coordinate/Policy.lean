import Quorum.Fault

/-!
# Conflict policies

What a publish does when transactions are already queued for its key: refuse, overwrite
version 0, or queue after the highest version. The two flags that choose overwriting and queueing
exclude each other.
-/

namespace Quorum

/-- How a publish treats transactions already queued for its key. -/
inductive ConflictPolicy where
  | refuse
  | force
  | additional
  deriving DecidableEq, Repr

namespace ConflictPolicy

def ofFlags (force additional : Bool) : Except Fault ConflictPolicy :=
  match force, additional with
  | true, true => .error (.inputConflict "cannot specify both --force and --additional")
  | true, false => .ok .force
  | false, true => .ok .additional
  | false, false => .ok .refuse

def name : ConflictPolicy → String
  | .refuse => "None"
  | .force => "Force"
  | .additional => "Additional"

end ConflictPolicy

end Quorum
