import Quorum.Config.Load
import Quorum.Coordinate.Request
import Quorum.Store.Directory
import Quorum.Chain.Binary
import Quorum.Path.Basic
import Quorum.Cli.Invocation

/-!
# Commands at work

A command runs on a host and may fail with a fault. Most commands work in a session: settings
loaded and a file store opened at the directory the settings name. An operation of the
coordinator runs in a session by answering its store calls from that directory and its chain
calls with the chain's program, run with the session's keyring backend, keystore home and time
limit.

Failures are faults: a setting that is missing or wrong is a configuration fault, a chain or
key name that cannot be part of a store path is a classification fault, and a local file that
cannot be read or written is an input or output fault.
-/

namespace Quorum.Cli

abbrev Work := ExceptT Fault (Program Host)

namespace Work

def lift {α : Type} (p : Program Host α) : Work α :=
  ExceptT.lift p

def print (line : String) : Work Unit :=
  lift (Host.printLine line)

def write (text : String) : Work Unit :=
  lift (Host.call (.write false text))

def configured {α : Type} : Except ConfigError α → Work α
  | .ok a => pure a
  | .error e => throw (.config e.message)

def classified {α : Type} : Except PathError α → Work α
  | .ok a => pure a
  | .error e => throw (.classification e.message)

def queue (t : Target) : Work Queue :=
  classified (Queue.new? t.chain t.key)

def onDisk {α : Type} (r : Except IoError α) : Work α :=
  match r with
  | .ok a => pure a
  | .error e => throw (.io e)

def readFile (path : String) : Work ByteArray := do
  let file ← lift (Host.absolute path)
  onDisk (← lift (Host.files (Files.call (.readFile file))))

def writeFile (path : String) (data : ByteArray) : Work Unit := do
  let file ← lift (Host.absolute path)
  onDisk (← lift (Host.files (Files.call (.writeFile file data))))

def createDirAll (path : String) : Work Unit := do
  let dir ← lift (Host.absolute path)
  onDisk (← lift (Host.files (Files.createDirAll dir)))

end Work

/-- Loads the settings from the file `explicit`, or from where they are found by default. -/
def loadConfig (explicit : Option String) : Work Config := do
  Work.configured (← Work.lift (Config.load explicit))

/-- Settings loaded and a file store opened. -/
structure Session where
  config : Config
  root : List String
  home : Option String

namespace Session

/-- Loads the settings and opens their store. A bucket store cannot be reached from here. -/
def start (g : Globals) : Work Session := do
  let c ← loadConfig g.config
  match c.store.backend, c.store.path with
  | .fs, some path => return ⟨c, ← Work.lift (Host.absolute path), g.home⟩
  | .fs, none =>
    throw (StoreError.backend "opening fs store" (.other "store.path is not set")).toFault
  | .s3, _ =>
    throw (StoreError.backend "connecting to s3" (.other "the bucket is out of reach")).toFault

def settings (s : Session) : Settings :=
  s.config.timeouts.settings

def binary (s : Session) (p : ChainProfile) : ChainBinary :=
  let b : ChainBinary := { binary := p.binary, home := s.home,
                           timeout := Duration.ofSecs s.config.timeouts.subprocessSecs }
  b.withKeyring s.config.keyringBackend

/-- How the session answers a request of the coordinator, with the chain's program `b`. -/
def answer (s : Session) (b : ChainBinary) : (r : Request) → Program Host r.Reply
  | .store c => Host.files (Directory.serve s.root c).run
  | .chain c => b.serve c

def perform {α : Type} (s : Session) (b : ChainBinary) (op : Op α) : Work α :=
  ExceptT.mk (op.run.interpret (s.answer b))

def storeOnly {α : Type} (s : Session) (op : Op α) : Work α :=
  s.perform { binary := "" } op

def resolve (s : Session) (t : Target) : Work (ChainProfile × MultisigKey) := do
  let chain ← Work.configured (s.config.chain t.chain)
  let key ← Work.configured (s.config.key t.key)
  return (chain, key)

def addressOf (chain : ChainProfile) (key : MultisigKey) : Work String :=
  Work.configured ((chain.addressOf key).mapError .address)

end Session

end Quorum.Cli
