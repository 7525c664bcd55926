import Quorum.Program
import Quorum.Store.Call
import Quorum.Metadata
import Quorum.Chain.Account
import Quorum.Chain.Outcome

/-!
# What the coordinator asks for

The coordinator talks to two services: the blob store that the co-signers share, and the chain,
which reports account numbers, signs, combines signatures into a signed transaction and submits
it. An operation of the coordinator is a program over the requests to both, and it fails with a
fault: a failing store call becomes the fault of its store error, and a failing chain call gives
its fault as it is.
-/

namespace Quorum

/-- A call to the chain's services. -/
inductive ChainCall where
  | account (address node : String)
  /-- A signature of `payload` by the local key `keyName` for the multisig account. -/
  | sign (payload : ByteArray) (multisigAddress keyName : String) (metadata : Metadata)
  | aggregate (payload : ByteArray) (multisigKey : String) (signatures : List (String × ByteArray))
      (metadata : Metadata) (node : Option String)
  | submit (signed : ByteArray) (node : String)

def ChainCall.Reply : ChainCall → Type
  | .account _ _ => AccountNumbers
  | .sign _ _ _ _ => ByteArray
  | .aggregate _ _ _ _ _ => ByteArray
  | .submit _ _ => Outcome

/-- A request of the coordinator. -/
inductive Request where
  | store (c : StoreCall)
  | chain (c : ChainCall)

def Request.Reply : Request → Type
  | .store c => Except StoreError c.Reply
  | .chain c => Except Fault c.Reply

def Coordination : Interface := ⟨Request, Request.Reply⟩

abbrev Op := ExceptT Fault (Program Coordination)

namespace Op

def store (c : StoreCall) : Op c.Reply :=
  ExceptT.mk ((Program.ask (I := Coordination) (.store c)).bind fun
    (x : Except StoreError c.Reply) => .pure (x.mapError StoreError.toFault))

def chain (c : ChainCall) : Op c.Reply :=
  ExceptT.mk (Program.ask (I := Coordination) (.chain c))

def contains (path : String) : Program Coordination (Except StoreError Bool) :=
  Program.ask (I := Coordination) (.store (.contains path))

def waitUntilAbsent (path : String) (timeout interval : Duration) : Op Unit :=
  ExceptT.mk ((Quorum.waitUntilAbsent contains path timeout interval).bind fun x =>
    .pure (x.mapError StoreError.toFault))

end Op

end Quorum
