import Quorum.Cli.Session
import Quorum.Cli.Listing
import Quorum.Coordinate.Publish
import Quorum.Coordinate.Broadcast
import Quorum.Coordinate.Delete
import Quorum.Chain.Generate
import Quorum.Config.Render
import Quorum.Text.Utf8
import Quorum.Text.Blank

/-!
# Running a command

What each command does with its request, and how the program ends. Converting an address and
showing the settings need no store; every other command works in a session. Each command checks
its inputs in a fixed order, the conflict of publishing flags first, then the chain and key,
then their store path, so that of two faults the same one is always reported.

A command line that was refused, or that asked for help or the version, prints its text and ends
there. A command that succeeds ends with status 0. A fault ends the program with its status
after `error: ` and its full report on the standard error; an advisory fault is only a warning
and ends with status 0.
-/

namespace Quorum.Cli

open Work

/-- Whether an answer to a question is yes: `y` or `yes` in any case, blanks around it
ignored. -/
def isYes (answer : String) : Bool :=
  let a := (Text.trimBlank answer).toLower
  a = "y" || a = "yes"

/-- Whether a relative path names a file inside the directory it is taken from: no empty name,
no `.` and no `..`. -/
def isSafeRelative (rel : String) : Bool :=
  !rel.isEmpty && (segments rel).all fun s => !s.isEmpty && s != "." && s != ".."

def joinLocal (dir rel : String) : String :=
  if dir.isEmpty then rel else if dir.endsWith "/" then dir ++ rel else dir ++ "/" ++ rel

def parentOf (path : String) : Option String :=
  match (segments path).dropLast with
  | [] => none
  | names => some ("/".intercalate names)

/-- The transaction that the chain's program writes for a request, `now` in Unix seconds. -/
def Draft.transaction (now : Int) : Draft → Except ChainError Transaction
  | .withdraw => .ok .withdrawAllRewards
  | .delegate v a => .ok (.delegate v a)
  | .claimValidator v => .ok (.withdrawCommission v)
  | .vote p o => .ok (.vote p o)
  | .grant g m days => (authzExpiration now days).map (.authzGrant g m)
  | .revoke g m => .ok (.authzRevoke g m)

def chainStep {α : Type} (r : Except ChainError α) : Work α :=
  match r with
  | .ok a => pure a
  | .error e => throw e.toFault

namespace Session

def publish (s : Session) (t : Target) (payload : ByteArray) (p : PublishChoice)
    (policy : ConflictPolicy) : Work Unit := do
  let (chain, key) ← s.resolve t
  let q ← queue t
  let address ← addressOf chain key
  let r : PublishRequest :=
    { queue := q, chainId := chain.id, payload := payload, address := address,
      account := p.account, sequence := p.sequence, node := chain.nodeOr p.node,
      policy := policy, description := p.description }
  let done ← s.perform (s.binary chain) (Op.publish s.settings r)
  print ("published " ++ done.version.display ++ " (account " ++
    toString done.metadata.account.toNat ++ ", sequence " ++
    toString done.metadata.sequence.toNat ++ ")")

def push (s : Session) (file : String) (t : Target) (p : PublishChoice) : Work Unit := do
  let policy ← liftExcept (ConflictPolicy.ofFlags p.force p.additional)
  let payload ← readFile file
  let _ ← s.resolve t
  s.publish t payload p policy
where
  liftExcept {α : Type} : Except Fault α → Work α
    | .ok a => pure a
    | .error f => throw f

/-- Publishes a transaction that the chain's program writes. A delegation is first checked
against the balance, when there is a node to ask. -/
def generate (s : Session) (t : Target) (tx : Transaction) (f : FeeChoice) (p : PublishChoice) :
    Work Unit := do
  let policy ← match ConflictPolicy.ofFlags p.force p.additional with
    | .ok policy => pure policy
    | .error e => throw e
  let (chain, key) ← s.resolve t
  let address ← addressOf chain key
  let o : GenerateOptions :=
    { sender := address, chainId := chain.id, fees := f.fees,
      gas := f.gas.getD s.config.defaultGas.toUInt64, node := chain.nodeOr p.node }
  let b := s.binary chain
  match tx, o.node with
  | .delegate _ amount, some node =>
    chainStep (← lift (b.ensureBalance address node amount f.fees))
  | _, _ => pure ()
  let payload ← chainStep (← lift (b.generate tx o))
  s.publish t payload p policy

def review (b : Bundle) : Work Bool := do
  print (Text.decodeLossy b.payload)
  let m := b.metadata
  print ("account: " ++ toString m.account.toNat ++ "  sequence: " ++ toString m.sequence.toNat ++
    "  chain-id: " ++ m.chainId)
  if !m.description.isEmpty then print ("description: " ++ m.description)
  write "Sign this transaction? [y/N]: "
  return isYes (← lift (Host.call .readLine))

/-- Signs a version and uploads the signature, after a review unless `confirmed`. -/
def sign (s : Session) (t : Target) (keyName : String) (index : UInt64) (signer : Option String)
    (confirmed : Bool) : Work Unit := do
  let (chain, key) ← s.resolve t
  let address ← addressOf chain key
  let name ← match signer.filter (!·.isEmpty) with
    | some n => pure n
    | none =>
      if !s.config.user.isEmpty then pure s.config.user
      else throw (.config "no signer name: set user in the config or pass --as")
  let v := (← queue t).version index
  let b ← s.storeOnly (Op.prepareSign v)
  if !confirmed then
    if !(← review b) then
      print "not signed"
      return
  let r : SignRequest :=
    { version := v, keyName := keyName, signer := name, multisigAddress := address }
  let path ← s.perform (s.binary chain) (Op.completeSign b r)
  print ("uploaded signature to " ++ path.render)

def broadcast (s : Session) (t : Target) (index : UInt64) (node : Option String)
    (multisigKey : Option String) (threshold : Option UInt64) (keepOnFailure : Bool) :
    Work Unit := do
  let (chain, key) ← s.resolve t
  let r : BroadcastRequest :=
    { version := (← queue t).version index, multisigKey := multisigKey.getD key.localName,
      node := chain.nodeOr node, threshold := (threshold.map (·.toNat)).getD key.threshold,
      cleanup := if keepOnFailure then .onSuccess else .always }
  let done ← s.perform (s.binary chain) (Op.broadcast s.settings r)
  print ("code: " ++ toString done.code)
  print ("txhash: " ++ done.txhash)

def delete (s : Session) (t : Target) (index : UInt64) : Work Unit := do
  let v := (← queue t).version index
  match ← s.storeOnly (Op.delete s.settings v) with
  | .nothing => print ("nothing to delete under " ++ v.pre)
  | .removed paths => paths.forM fun p => print ("deleted " ++ p)

def list (s : Session) (chain key : Option String) (everything : Bool) : Work Unit := do
  if everything then
    write (← s.storeOnly Op.listEverything).render
  else
    let (some c, some k) := (chain, key)
      | throw (.inputConflict "specify <chain> <key> or --all")
    let q ← queue ⟨c, k⟩
    let indices ← s.storeOnly (Op.listVersions q)
    if indices.isEmpty then print ("no transactions under " ++ q.pre)
    indices.forM fun i => do
      let v := q.version i
      print (versionLine v (← s.storeOnly (Op.versionContents v)))

def cat (s : Session) (t : Target) : Work Unit := do
  let pre := (← queue t).pre
  let objects ← s.storeOnly (Op.store (.listPrefix pre))
  if objects.isEmpty then print ("no files in " ++ pre)
  (objects.filter (!·.endsWith "/")).forM fun o => do
    match ← s.storeOnly (Op.store (.get o)) with
    | some data =>
      print ("\n|------------| " ++ o ++ " |------------|\n")
      print (Text.decodeLossy data)
    | none => pure ()

/-- Downloads every object under a directory of the store into a local directory, skipping
markers and objects that would land outside it, and prints each file written. -/
def downloadDir (s : Session) (remote dir : String) : Work Unit := do
  createDirAll dir
  let objects ← s.storeOnly (Op.store (.listPrefix remote))
  objects.forM fun o => do
    let rel := String.ofList (o.toList.drop remote.length)
    if rel.isEmpty || rel.endsWith "/" || !isSafeRelative rel then return
    match ← s.storeOnly (Op.store (.get o)) with
    | none => pure ()
    | some data =>
      let dest := joinLocal dir rel
      match parentOf dest with
      | some parent => createDirAll parent
      | none => pure ()
      writeFile dest data
      print dest

/-- Downloads one object, or a directory of the store when the path ends in `/`. -/
def download (s : Session) (remote dest : String) : Work Unit := do
  if remote.endsWith "/" then s.downloadDir remote dest
  else
    match ← s.storeOnly (Op.store (.get remote)) with
    | some data => writeFile dest data
    | none => throw (.versionNotFound remote)

def remove (s : Session) (path : String) : Work Unit := do
  s.storeOnly (Op.store (.delete path))
  s.storeOnly (Op.waitUntilAbsent path s.settings.deleteTimeout s.settings.pollInterval)
  print ("deleted " ++ path)

def execute (s : Session) : Invocation → Work Unit
  | .push file t p => s.push file t p
  | .generate t d f p => do
    let tx ← chainStep (d.transaction (← lift (Host.call .now)))
    s.generate t tx f p
  | .sign t keyName index signer confirmed => s.sign t keyName index signer confirmed
  | .broadcast t index node key threshold keep => s.broadcast t index node key threshold keep
  | .delete t index => s.delete t index
  | .list chain key everything => s.list chain key everything
  | .cat t => s.cat t
  | .upload source dest => do
    let data ← readFile source
    s.storeOnly (Op.store (.put dest data))
  | .download source dest => s.download source dest
  | .mkdir dir =>
    if dir.endsWith "/" then s.storeOnly (Op.store (.put dir ByteArray.empty))
    else throw (.inputConflict "directory paths must end with '/'")
  | .remove path => s.remove path
  | .bech32 .. | .showConfig => pure ()

end Session

def Invocation.execute (g : Globals) : Invocation → Work Unit
  | .bech32 address newPrefix =>
    match convertPrefix address newPrefix with
    | .ok a => print a
    | .error e => throw (.classification e.message)
  | .showConfig => do
    let c ← loadConfig g.config
    write (← configured c.toRedactedToml)
  | inv => do (← Session.start g).execute inv

def defectStatus : Nat := 101

def defectReport (d : Defect) : String :=
  d.message ++ "\n"

/-- Runs the program on a command line, without the program's name, and gives its exit
status. -/
def runCommandLine (args : List String) : Program Host Nat := do
  match readCommandLine args with
  | .error stop =>
    Host.call (.write stop.isFailure stop.text)
    return if stop.isFailure then 2 else 0
  | .ok reading =>
    match reading.invocation with
    | none => return 0
    | some inv =>
      match ← (inv.execute reading.globals).run with
      | .ok () => return 0
      | .error f =>
        if f.isAdvisory then
          Host.printError ("warning: " ++ f.message)
          return 0
        else
          Host.printError ("error: " ++ f.report)
          return f.code

end Quorum.Cli
