import Quorum.Duration
import Quorum.Host.IoError
import Quorum.Text.Quoted

/-!
# Faults

Every failure that an operation of the coordinator reports. None of them is retried: the operator
reads the sentence and runs the command again. Each fault has an exit status, and one of them,
missing context, is advisory: it is shown as a warning and the process still succeeds.

Some faults carry the failure that caused them; the full report of a fault is its sentence
followed by the sentences of its causes, each after `: `.
-/

namespace Quorum

/-- A failure of an operation of the coordinator. -/
inductive Fault where
  | inputConflict (what : String)
  | insufficientContext (what : String)
  | alreadyExists (pre : String)
  | nothingToModify (pre : String)
  | versionNotFound (path : String)
  | outOfOrderBroadcast (requested pending : UInt64)
  | insufficientSignatures (required actual : Nat)
  | unparsableResult (what : String)
  | storeUnavailable (context : String) (source : IoError)
  | subprocessFailed (command output : String) (source : Option IoError)
  | timeout (operation : String) (after : Duration)
  | classification (what : String)
  | corruptMetadata (path reason : String)
  | partialCleanup (pre : String) (removed remaining : List String) (source : Fault)
  | cleanupAfterBroadcast (code : Nat) (txhash pre : String) (removed remaining : List String)
      (source : Fault)
  | config (what : String)
  | io (error : IoError)
  deriving Repr

namespace Fault

def kind : Fault → String
  | .inputConflict _ => "InputConflict"
  | .insufficientContext _ => "InsufficientContext"
  | .alreadyExists _ => "AlreadyExists"
  | .nothingToModify _ => "NothingToModify"
  | .versionNotFound _ => "VersionNotFound"
  | .outOfOrderBroadcast _ _ => "OutOfOrderBroadcast"
  | .insufficientSignatures _ _ => "InsufficientSignatures"
  | .unparsableResult _ => "UnparsableResult"
  | .storeUnavailable _ _ => "StoreUnavailable"
  | .subprocessFailed _ _ _ => "SubprocessFailed"
  | .timeout _ _ => "Timeout"
  | .classification _ => "Classification"
  | .corruptMetadata _ _ => "CorruptMetadata"
  | .partialCleanup _ _ _ _ => "PartialCleanup"
  | .cleanupAfterBroadcast _ _ _ _ _ _ => "CleanupAfterBroadcast"
  | .config _ => "Config"
  | .io _ => "Io"

def code : Fault → Nat
  | .inputConflict _ => 3
  | .insufficientContext _ => 0
  | .alreadyExists _ => 4
  | .nothingToModify _ => 5
  | .versionNotFound _ => 6
  | .outOfOrderBroadcast _ _ => 7
  | .insufficientSignatures _ _ => 8
  | .unparsableResult _ => 9
  | .storeUnavailable _ _ => 10
  | .subprocessFailed _ _ _ => 11
  | .timeout _ _ => 12
  | .classification _ => 13
  | .corruptMetadata _ _ => 13
  | .partialCleanup _ _ _ _ => 14
  | .cleanupAfterBroadcast _ _ _ _ _ _ => 14
  | .config _ => 2
  | .io _ => 1

def isAdvisory : Fault → Bool
  | .insufficientContext _ => true
  | _ => false

def message : Fault → String
  | .inputConflict w => "conflicting inputs: " ++ w
  | .insufficientContext w => "insufficient context: " ++ w
  | .alreadyExists p =>
    "transactions already exist under " ++ p ++
      "; use --force to overwrite or --additional to queue another"
  | .nothingToModify p =>
    "nothing published under " ++ p ++ "; --force and --additional need existing transactions"
  | .versionNotFound p => "version not found: " ++ p ++ " does not exist"
  | .outOfOrderBroadcast r p =>
    "version " ++ Nat.repr p.toNat ++ " is still pending; version " ++ Nat.repr r.toNat ++
      " cannot be broadcast before it"
  | .insufficientSignatures r a =>
    "insufficient signatures for broadcast: requires " ++ Nat.repr r ++ ", got " ++ Nat.repr a
  | .unparsableResult w => "unparsable broadcast result: " ++ w
  | .storeUnavailable c _ => "store unavailable while " ++ c
  | .subprocessFailed c o _ => "command failed: " ++ c ++ "\n" ++ o
  | .timeout op after => "timed out after " ++ after.render ++ " while " ++ op
  | .classification w => "classification error: " ++ w
  | .corruptMetadata p r => "corrupt sign metadata at " ++ p ++ ": " ++ r
  | .partialCleanup p rm rest _ =>
    "partial cleanup of " ++ p ++ ": removed " ++ Text.quoteList rm ++ ", remaining " ++
      Text.quoteList rest
  | .cleanupAfterBroadcast c h p rm rest _ =>
    "transaction " ++ h ++ " was submitted with code " ++ Nat.repr c ++ ", but cleanup of " ++ p ++
      " failed: removed " ++ Text.quoteList rm ++ ", remaining " ++ Text.quoteList rest ++
      "; run delete to finish"
  | .config w => "configuration error: " ++ w
  | .io e => "io error: " ++ e.message

def causes : Fault → List String
  | .storeUnavailable _ s => [s.message]
  | .subprocessFailed _ _ (some s) => [s.message]
  | .partialCleanup _ _ _ f => f.message :: f.causes
  | .cleanupAfterBroadcast _ _ _ _ _ f => f.message :: f.causes
  | .io e => [e.message]
  | _ => []

def source? (f : Fault) : Option String :=
  f.causes.head?

def report (f : Fault) : String :=
  String.intercalate ": " (f.message :: f.causes)

end Fault

end Quorum
