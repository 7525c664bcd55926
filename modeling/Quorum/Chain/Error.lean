import Quorum.Fault

/-!
# Chain errors

The failures of the chain's command line program as seen by its caller, and how each becomes a
fault of the coordinator: a program that cannot start or exits badly is a failed command, one that
runs too long a timeout, output without the expected shape an unparsable result, and a balance too
small for a delegation a conflict of inputs.
-/

namespace Quorum

/-- A failure of the chain's program. -/
inductive ChainError where
  | spawn (command : String) (source : IoError)
  | exit (command status output : String)
  | timeout (command : String) (after : Duration)
  | unparsable (what : String)
  | registry (what : String)
  | insufficientBalance (balance required : String)
  | io (error : IoError)
  deriving Repr

namespace ChainError

def kind : ChainError → String
  | .spawn _ _ => "Spawn"
  | .exit _ _ _ => "Exit"
  | .timeout _ _ => "Timeout"
  | .unparsable _ => "Unparsable"
  | .registry _ => "Registry"
  | .insufficientBalance _ _ => "InsufficientBalance"
  | .io _ => "Io"

def message : ChainError → String
  | .spawn c s => "failed to start " ++ c ++ ": " ++ s.message
  | .exit c s _ => c ++ " exited with " ++ s
  | .timeout c after => c ++ " did not finish within " ++ after.render
  | .unparsable w => "unparsable output: " ++ w
  | .registry w => "chain registry lookup failed: " ++ w
  | .insufficientBalance b r =>
    "balance " ++ b ++ " is less than " ++ r ++ " (amount plus fee); the transaction would fail"
  | .io e => "io error: " ++ e.message

def toFault : ChainError → Fault
  | .spawn c s => .subprocessFailed c "" (some s)
  | .exit c s o => .subprocessFailed c (s ++ "\n" ++ o) none
  | .timeout c after => .timeout ("running " ++ c) after
  | .unparsable w => .unparsableResult w
  | .registry w => .config ("cannot find fee denom in the config or registry: " ++ w)
  | e@(.insufficientBalance _ _) => .inputConflict e.message
  | .io e => .io e

end ChainError

end Quorum
