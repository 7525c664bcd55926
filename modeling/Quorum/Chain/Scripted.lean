import Quorum.Coordinate.Request

/-!
# A scripted chain

A chain whose answers are fixed in advance, to rehearse operations without a node: it reports
configured account numbers, signs by writing `sig:<key>:<sequence>`, combines signatures by
writing `signed-by:` and the signer names, and answers a submission with a configured result.
Each service can be made to fail.
-/

namespace Quorum

/-- The answers of a scripted chain. -/
structure ScriptedChain where
  account : Option AccountNumbers := some ⟨5, 12⟩
  submit : Option Outcome := some ⟨0, "ABCDEF"⟩
  signFails : Bool := false
  aggregateFails : Bool := false

namespace ScriptedChain

def failure (command : String) : Fault :=
  .subprocessFailed command "scripted failure" none

def answer (c : ScriptedChain) : (call : ChainCall) → Except Fault call.Reply
  | .account _ _ =>
    match c.account with
    | some a => .ok a
    | none => .error (.unparsableResult "account not found")
  | .sign _ _ keyName m =>
    if c.signFails then .error (failure "mock sign")
    else .ok ("sig:" ++ keyName ++ ":" ++ Nat.repr m.sequence.toNat).toUTF8
  | .aggregate _ _ signatures _ _ =>
    if c.aggregateFails then .error (failure "mock aggregate")
    else .ok ("signed-by:" ++ ",".intercalate (signatures.map (·.1))).toUTF8
  | .submit _ _ =>
    match c.submit with
    | some o => .ok o
    | none => .error (failure "mock submit")

end ScriptedChain

end Quorum
