import Quorum.Chain.Error
import Quorum.Json.Decode

/-!
# Accounts and balances

The account number and sequence of the multisig account, read from the chain's answer to an
account query, and the balance of one denomination, read from its answer to a balance query.

Each kind of account is told by its `@type` and reduced to the base account inside it, which
holds the two numbers. A base account stands as it is; a vesting account keeps it at
`base_vesting_account.base_account`, an Ethereum-style account at `base_account`; an answer with
no `@type` may wrap the account in a member `account`. Numbers come as JSON integers or as
decimal strings, and a sequence of zero may be left out.
-/

namespace Quorum

/-- The account number and sequence of an account. -/
structure AccountNumbers where
  accountNumber : UInt64
  sequence : UInt64
  deriving DecidableEq, Repr

def baseAccountType : String := "/cosmos.auth.v1beta1.BaseAccount"

def vestingAccountTypes : List String := [
  "/cosmos.vesting.v1beta1.ContinuousVestingAccount",
  "/cosmos.vesting.v1beta1.DelayedVestingAccount",
  "/cosmos.vesting.v1beta1.PeriodicVestingAccount",
  "/cosmos.vesting.v1beta1.PermanentLockedAccount",
  "/stride.vesting.StridePeriodicVestingAccount"]

def containsText (s part : String) : Bool :=
  s.contains part

/-- A number member of an account, as an integer or a decimal string, if present. -/
def numberMember (base : Json.Value) (field : String) : Except ChainError (Option UInt64) :=
  let notInteger : ChainError := .unparsable (field ++ " is not an integer")
  match base.get? field with
  | none | some .null => .ok none
  | some (.number (.nat n)) => if n < Nat.pow 2 64 then .ok (some n.toUInt64) else .error notInteger
  | some (.string s) =>
    match Numeral.parseU64 s with
    | .ok n => .ok (some n)
    | .error _ => .error notInteger
  | some _ => .error notInteger

/-- The base account inside an account of type `kind`: the account itself for a base account,
its `base_vesting_account.base_account` for a vesting account, its `base_account` for an
Ethereum-style account. -/
def accountBase (kind : String) (value : Json.Value) : Except ChainError Json.Value :=
  let missing (field : String) : ChainError := .unparsable (kind ++ " has no " ++ field)
  if kind = baseAccountType then .ok value
  else if vestingAccountTypes.contains kind then
    match value.pointer? "/base_vesting_account/base_account" with
    | some b => .ok b
    | none => .error (missing "base_vesting_account.base_account")
  else if containsText kind "EthAccount" then
    match value.get? "base_account" with
    | some b => .ok b
    | none => .error (missing "base_account")
  else .error (.unparsable ("cannot parse account type " ++ kind))

/-- The account number and sequence of a base account; a sequence left out is zero. -/
def baseNumbers (b : Json.Value) : Except ChainError AccountNumbers := do
  let number ← numberMember b "account_number"
  match number with
  | none => .error (.unparsable "account number is missing")
  | some n =>
    let sequence ← numberMember b "sequence"
    return ⟨n, sequence.getD 0⟩

/-- The numbers of the base account that `value` holds; `depth` bounds the wrappers. -/
def numbersOf : Nat → Json.Value → Except ChainError AccountNumbers
  | 0, _ => .error (.unparsable "account has no @type")
  | depth + 1, value =>
    match (value.get? "@type").bind Json.Value.asString?, value.get? "account" with
    | none, some inner => numbersOf depth inner
    | some kind, _ => (accountBase kind value).bind baseNumbers
    | none, none => .error (.unparsable "account has no @type")

def parseAccount (output : ByteArray) : Except ChainError AccountNumbers :=
  match Json.parseValue output with
  | .error e => .error (.unparsable ("account query output is not JSON: " ++ e.message))
  | .ok v => numbersOf (output.size + 2) v

/-- One balance of a balance answer. -/
structure Balance where
  denom : String
  amount : String

/-- The fields of a balance read so far. -/
structure BalancePartial where
  denom : Option String := none
  amount : Option String := none

def balanceShape : Json.Record BalancePartial where
  name := "Balance"
  empty := {}
  fields := [
    { name := "denom", optionalInObject := false, optionalInArray := false,
      present := fun p => p.denom.isSome,
      read := fun p fuel => do return { p with denom := some (← Json.readText fuel) } },
    { name := "amount", optionalInObject := false, optionalInArray := false,
      present := fun p => p.amount.isSome,
      read := fun p fuel => do return { p with amount := some (← Json.readText fuel) } }]

def readBalance (fuel : Nat) : Json.ReadM Balance := do
  let p ← Json.readRecord balanceShape fuel
  return ⟨p.denom.getD "", p.amount.getD ""⟩

/-- The record shape of a balance answer: a list of balances, empty if left out. -/
def balancesShape : Json.Record (Option (List Balance)) where
  name := "Balances"
  empty := none
  fields := [
    { name := "balances", optionalInObject := true, optionalInArray := true,
      present := fun p => p.isSome,
      read := fun _ fuel => do return some (← Json.readList readBalance fuel) }]

/-- Whether two texts are equal when ASCII letters are compared without case. -/
def equalIgnoringCase (a b : String) : Bool :=
  a.toList.map Char.toLower == b.toList.map Char.toLower

/-- The amount of `denom` in the answer to a balance query; denominations are matched without
regard to ASCII case, the first match counting. -/
def parseBalance (output : ByteArray) (denom : String) : Except ChainError Nat :=
  match Json.readDocument output (Json.readRecord balancesShape) with
  | .error e => .error (.unparsable ("cannot parse balance: " ++ e.message))
  | .ok balances =>
    match (balances.getD []).find? (fun b => equalIgnoringCase b.denom denom) with
    | none => .error (.unparsable ("cannot find balance for " ++ denom ++ " denom"))
    | some b =>
      match Numeral.parseU128 b.amount with
      | .ok n => .ok n
      | .error _ => .error (.unparsable ("cannot parse balance for " ++ denom ++ " denom"))

/-- The denomination of the first fee coin of an unsigned transaction, if it has one. -/
def payloadFeeDenom (payload : ByteArray) : Option String :=
  match Json.parseValue payload with
  | .ok v => (v.pointer? "/auth_info/fee/amount/0/denom").bind Json.Value.asString?
  | .error _ => none

end Quorum
