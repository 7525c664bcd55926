import Quorum.Cli.Grammar

/-!
# The commands of the coordinator

The command line of the coordinator: publishing unsigned transactions (`tx`), signing,
broadcasting, deleting and listing them, low level store and address tools (`raw`), and showing
the settings (`config`). Every command names the settings file, the keystore home, the log
level and the log format the same way, before or after its own parameters.

Parameters declared together form a group that lists them: the global ones, the chain and
key, the publishing options, the fee options, the parameters of `list`, and the values of each
low level tool other than `cat`. Parameters declared beside such a group form none.

A transaction is named by its chain and multisig key, two positional values; a version of it by
`--index`, 0 when not given.
-/

namespace Quorum.Cli

def programName : String := "cosign"

def programVersion : String := "0.1.0"

def slot (id valueName help : String) (check : ValueCheck := .text) : Param :=
  { id := id, kind := .positional valueName, check := check, help := help, required := true }

def opt (id : String) (short : Char) (valueName help : String) (check : ValueCheck := .text) :
    Param :=
  { id := id, kind := .option valueName, short := some short, long := some id, check := check,
    help := help }

def switch (id : String) (short : Char) (help : String) : Param :=
  { id := id, kind := .flag, short := some short, long := some id, help := help }

def globalParams : List Param := inGroup "GlobalOpts" [
  { id := "config", kind := .option "FILE", short := some 'c', long := some "config",
    check := .path, help := "Configuration file", global := true },
  { id := "home", kind := .option "DIR", long := some "home", check := .path,
    help := "Keystore home passed to the chain binary when signing and broadcasting",
    global := true },
  { switch "verbose" 'v' "Enable debug logging" with global := true },
  { id := "log_format", kind := .option "LOG_FORMAT", long := some "log-format",
    check := .logFormat, help := "Log format (text, json)", default := some "text",
    global := true }]

def targetParams : List Param := inGroup "Target" [
  slot "chain" "CHAIN" "Chain name from the config",
  slot "key" "KEY" "Multisig key name from the config"]

def publishParams : List Param := inGroup "PublishOpts" [
  opt "account" 'a' "ACCOUNT" "Account number, queried from the node when absent" (.word 0),
  opt "sequence" 's' "SEQUENCE" "Sequence, queried from the node when absent" (.word 0),
  opt "node" 'n' "NODE" "RPC node, overrides the config",
  switch "force" 'f' "Overwrite the transaction already published",
  switch "additional" 'x' "Queue after the transactions already published",
  { opt "description" 'i' "DESCRIPTION" "Free text shown to co-signers" with default := some "" }]

/-- The fee options of every command that has the chain's program write a transaction. -/
def feeParams : List Param := inGroup "FeeOpts" [
  { id := "fees", kind := .option "FEES", long := some "fees", check := .coin,
    help := "Fees to pay, e.g. 5000uatom", required := true },
  opt "gas" 'g' "GAS" "Gas limit, defaults to the config value" (.word 0),
  opt "denom" 'd' "DENOM" "Expected fee denom, overrides the config and the chain registry"]

def validatorParam : Param :=
  slot "validator" "VALIDATOR" "Validator operator address"

def grantParams : List Param := [
  slot "grantee" "GRANTEE" "Grantee address",
  slot "msg" "MSG" "withdraw, delegate, commission, vote, unbond or redelegate" .authzMsg]

def indexParam (help : String) : Param :=
  { opt "index" 'i' "INDEX" help (.word 0) with default := some "0" }

def txCommand : Command :=
  .make "tx" "Create and publish unsigned transactions" [] [
    .make "push" "Publish an unsigned transaction file"
      ([slot "file" "FILE" "Unsigned transaction JSON" .path] ++ targetParams ++ publishParams) [],
    .make "withdraw" "Withdraw all staking rewards" (targetParams ++ feeParams ++ publishParams) [],
    .make "delegate" "Delegate to a validator"
      (targetParams ++ [validatorParam,
        slot "amount" "AMOUNT" "Amount to delegate, e.g. 1000000uatom" .coin] ++
        feeParams ++ publishParams) [],
    .make "claim-validator" "Withdraw validator rewards and commission"
      (targetParams ++ [validatorParam] ++ feeParams ++ publishParams) [],
    .make "vote" "Vote on a governance proposal"
      (targetParams ++ [slot "proposal" "PROPOSAL" "Proposal id" (.word 0),
        slot "option" "OPTION" "yes, no, veto or abstain" .vote] ++ feeParams ++ publishParams) [],
    .make "authz" "Grant or revoke authz permissions" [] [
      .make "grant" "Grant a generic authorization"
        (targetParams ++ grantParams ++
          [slot "expiration_days" "EXPIRATION_DAYS" "Days until the grant expires" .word32] ++
          feeParams ++ publishParams) [],
      .make "revoke" "Revoke an authorization"
        (targetParams ++ grantParams ++ feeParams ++ publishParams) []]]

def signCommand : Command :=
  .make "sign" "Sign a published transaction and upload the signature" (targetParams ++ [
    { opt "from" 'f' "FROM" "Local key to sign with" with required := true },
    indexParam "Version to sign",
    { id := "signer", kind := .option "NAME", long := some "as",
      help := "Name to store the signature under, defaults to `user` from the config" },
    switch "yes" 'y' "Skip the confirmation prompt"]) []

def broadcastCommand : Command :=
  .make "broadcast" "Aggregate signatures, broadcast and clean up" (targetParams ++ [
    indexParam "Version to broadcast",
    opt "node" 'n' "NODE" "Node to broadcast to, overrides the config",
    { id := "multisig_key", kind := .option "MULTISIG_KEY", short := some 'k',
      long := some "key", help := "Local multisig key name, overrides the config" },
    opt "threshold" 't' "THRESHOLD" "Signatures required, overrides the config" (.word 1),
    { id := "keep_on_failure", kind := .flag, long := some "keep-on-failure",
      help := "Keep the transaction in the store when the chain rejects it" }]) []

def rawCommand : Command :=
  .make "raw" "Low level store and address utilities" [] [
    .make "bech32" "Re-encode an address with another prefix"
      (inGroup "Bech32" [slot "address" "ADDRESS" "", slot "prefix" "PREFIX" ""]) [],
    .make "cat" "Print every file under a chain and key" targetParams [],
    .make "up" "Upload a local file"
      (inGroup "Up" [slot "local" "LOCAL" "" .path, slot "remote" "REMOTE" ""]) [],
    .make "down" "Download a file, or a directory when the remote path ends with '/'"
      (inGroup "Down" [slot "remote" "REMOTE" "", slot "local" "LOCAL" "" .path]) [],
    .make "mkdir" "Create a directory marker, the path must end with '/'"
      (inGroup "Mkdir" [slot "dir" "DIR" ""]) [],
    .make "delete" "Delete one object" (inGroup "Delete" [slot "path" "PATH" ""]) []]

def program : Command :=
  .make programName "Coordinate offline multisig transactions through a shared store"
    globalParams [
    txCommand,
    signCommand,
    broadcastCommand,
    .make "delete" "Remove every file of a transaction"
      (targetParams ++ [indexParam "Version to delete"]) [],
    .make "list" "Show published transactions" (inGroup "ListCmd" [
      { id := "chain", kind := .positional "CHAIN", help := "Chain name",
        requiredUnless := ["all"] },
      { id := "key", kind := .positional "KEY", help := "Multisig key name",
        requiredUnless := ["all"] },
      { switch "all" 'a' "List everything in the store" with conflicts := ["chain", "key"] }]) [],
    rawCommand,
    .make "config" "Configuration management" [] [
      .make "show" "Print the loaded configuration with secrets redacted" [] []]]

end Quorum.Cli
