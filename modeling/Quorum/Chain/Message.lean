import Quorum.Chain.Error

/-!
# Messages of generated transactions

The choices a generated transaction carries: the option of a governance vote, the kind of message
an authorization grant or revoke covers, and the expiry of a grant as a timestamp some whole days
ahead.

Vote options are read without regard to ASCII case; message kinds are read exactly.
-/

namespace Quorum

/-- An option of a governance vote. -/
inductive VoteOption where
  | yes
  | no
  | noWithVeto
  | abstain
  deriving DecidableEq, Repr

namespace VoteOption

/-- Reads a vote option; `veto`, `no_with_veto` and `nowithveto` all mean a veto. -/
def parse (s : String) : Except String VoteOption :=
  let t := String.ofList (s.toList.map Char.toLower)
  if t = "yes" then .ok .yes
  else if t = "no" then .ok .no
  else if t = "veto" || t = "no_with_veto" || t = "nowithveto" then .ok .noWithVeto
  else if t = "abstain" then .ok .abstain
  else .error ("invalid vote option " ++ t ++ ": expected yes, no, veto or abstain")

def word : VoteOption → String
  | .yes => "yes"
  | .no => "no"
  | .noWithVeto => "no_with_veto"
  | .abstain => "abstain"

def name : VoteOption → String
  | .yes => "Yes"
  | .no => "No"
  | .noWithVeto => "NoWithVeto"
  | .abstain => "Abstain"

end VoteOption

/-- A kind of message that an authorization covers. -/
inductive AuthzMsg where
  | withdraw
  | delegate
  | commission
  | vote
  | unbond
  | redelegate
  deriving DecidableEq, Repr

namespace AuthzMsg

def parse (s : String) : Except String AuthzMsg :=
  if s = "withdraw" then .ok .withdraw
  else if s = "delegate" then .ok .delegate
  else if s = "commission" then .ok .commission
  else if s = "vote" then .ok .vote
  else if s = "unbond" then .ok .unbond
  else if s = "redelegate" then .ok .redelegate
  else .error ("message type " ++ s ++ " not supported")

def typeUrl : AuthzMsg → String
  | .withdraw => "/cosmos.distribution.v1beta1.MsgWithdrawDelegatorReward"
  | .delegate => "/cosmos.staking.v1beta1.MsgDelegate"
  | .commission => "/cosmos.distribution.v1beta1.MsgWithdrawValidatorCommission"
  | .vote => "/cosmos.gov.v1beta1.MsgVote"
  | .unbond => "/cosmos.staking.v1beta1.MsgUndelegate"
  | .redelegate => "/cosmos.staking.v1beta1.MsgBeginRedelegate"

def name : AuthzMsg → String
  | .withdraw => "Withdraw"
  | .delegate => "Delegate"
  | .commission => "Commission"
  | .vote => "Vote"
  | .unbond => "Unbond"
  | .redelegate => "Redelegate"

end AuthzMsg

/-- The last second that a timestamp can name: the end of December 31 of the year 262142. -/
def latestTimestamp : Int := 8210266876799

/-- The timestamp `days` whole days after `now`, if it is not past the latest one. -/
def authzExpiration (now : Int) (days : Nat) : Except ChainError Int :=
  let at_ := now + days * 86400
  if at_ ≤ latestTimestamp then .ok at_
  else .error (.unparsable ("expiration of " ++ Nat.repr days ++ " days is out of range"))

end Quorum
