import Quorum.Chain.Binary
import Quorum.Chain.Message

/-!
# Generating transactions

The unsigned transactions that get published for signing are built by the chain's client in
generate-only mode: the client chooses nothing but the message, and is given the multisig address
as the sender, the fee, the gas limit and the chain id.
-/

namespace Quorum

/-- A transaction to generate. -/
inductive Transaction where
  | withdrawAllRewards
  | delegate (validator : String) (amount : Coin)
  | withdrawCommission (validator : String)
  | vote (proposal : UInt64) (option : VoteOption)
  /-- Allow `grantee` to send messages of one kind until `expiration`, in Unix seconds. -/
  | authzGrant (grantee : String) (msg : AuthzMsg) (expiration : Int)
  | authzRevoke (grantee : String) (msg : AuthzMsg)

def Transaction.subcommand : Transaction → List String
  | .withdrawAllRewards => ["tx", "distribution", "withdraw-all-rewards"]
  | .delegate v a => ["tx", "staking", "delegate", v, a.render]
  | .withdrawCommission v => ["tx", "distribution", "withdraw-rewards", v, "--commission"]
  | .vote p o => ["tx", "gov", "vote", Nat.repr p.toNat, o.word]
  | .authzGrant g m e =>
    ["tx", "authz", "grant", g, "generic", "--expiration", toString e, "--msg-type", m.typeUrl]
  | .authzRevoke g m => ["tx", "authz", "revoke", g, m.typeUrl]

/-- What every generated transaction is given. -/
structure GenerateOptions where
  sender : String
  chainId : String
  fees : Coin
  gas : UInt64
  node : Option String

def ChainBinary.generate (b : ChainBinary) (tx : Transaction) (o : GenerateOptions) :
    Program Host (Except ChainError ByteArray) :=
  b.run (tx.subcommand ++ ["--from", o.sender, "--fees", o.fees.render, "--gas",
    Nat.repr o.gas.toNat, "--generate-only", "--chain-id", o.chainId] ++
    optionArgs "--node" o.node ++ optionArgs "--keyring-backend" b.keyringBackend)

end Quorum
