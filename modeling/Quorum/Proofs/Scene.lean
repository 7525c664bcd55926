import Quorum.Coordinate.Broadcast
import Quorum.Store.Blobs

/-!
# Operations run in a world

An operation of the coordinator only describes the calls it makes. To say what it does, it is run
in a world: a store and a chain, each answering on a state of its own, and the log of every
request made so far with the answer it got. Store and chain are parameters, so that a statement
about a run holds for every way of answering, and the log lets a statement say which calls a run
made, in which order, and what each of them was told.

The store of most statements is a memory store that does not always carry out the writes it is
sent: an environment decides, write by write, whether a write takes effect, fails and changes
nothing, or, for a removal, reports success and removes nothing. Reads and checks of existence
always see the objects as they are.
-/

namespace Quorum

namespace Program

variable {I : Interface} {α β γ : Type}

theorem bind_pure (p : Program I α) : p.bind (fun a => .pure a) = p := by
  induction p with
  | pure a => rfl
  | call r next ih => simp only [bind, ih]
  | abort d => rfl

theorem bind_assoc (p : Program I α) (f : α → Program I β) (g : β → Program I γ) :
    (p.bind f).bind g = p.bind fun a => (f a).bind g := by
  induction p with
  | pure a => rfl
  | call r next ih => simp only [bind, ih]
  | abort d => rfl

instance : LawfulMonad (Program I) :=
  LawfulMonad.mk' (Program I) (fun x => bind_pure x) (fun _ _ => rfl) bind_assoc

end Program

abbrev ChainAnswer (τ : Type) := (c : ChainCall) → τ → Except Fault c.Reply × τ

abbrev Answered := (r : Request) × r.Reply

/-- The world of an operation: the states of its store and its chain, and every request made so
far with its answer, oldest first. -/
structure Scene (σ τ : Type) where
  store : σ
  chain : τ
  log : List Answered

namespace Scene

variable {σ τ : Type}

/-- How a world answers a request: the store or the chain answers it, and the request is logged
with its answer. -/
def answer (st : StoreAnswer σ) (ch : ChainAnswer τ) :
    (r : Request) → Scene σ τ → r.Reply × Scene σ τ
  | .store c, w =>
    ((st c w.store).1,
      { w with store := (st c w.store).2, log := w.log ++ [⟨.store c, (st c w.store).1⟩] })
  | .chain c, w =>
    ((ch c w.chain).1,
      { w with chain := (ch c w.chain).2, log := w.log ++ [⟨.chain c, (ch c w.chain).1⟩] })

end Scene

def StoreCall.isRead : StoreCall → Bool
  | .get _ | .listAll | .listPrefix _ | .contains _ => true
  | .put _ _ | .delete _ => false

def Request.isRead : Request → Bool
  | .store c => c.isRead
  | .chain _ => false

def Request.isChain : Request → Bool
  | .store _ => false
  | .chain _ => true

@[simp] theorem Request.isChain_store (c : StoreCall) : (Request.store c).isChain = false := rfl

@[simp] theorem Request.isChain_chain (c : ChainCall) : (Request.chain c).isChain = true := rfl

def Request.isPut : Request → Bool
  | .store (.put _ _) => true
  | _ => false

theorem Request.isChain_of_isRead {r : Request} (h : r.isRead) : r.isChain = false := by
  cases r <;> simp_all [Request.isRead, Request.isChain]

theorem Request.isPut_of_isRead {r : Request} (h : r.isRead) : r.isPut = false := by
  rcases r with (_ | _ | _ | _ | _ | _) | _ <;>
    simp_all [Request.isRead, StoreCall.isRead, Request.isPut]

/-- What becomes of a write sent to a memory store. -/
inductive Fate where
  | done
  | fails (e : StoreError)
  | lost

/-- A memory store under an environment that decides what becomes of each write: the state of the
environment and the objects. -/
structure Lossy (ρ : Type) where
  env : ρ
  blobs : Blobs

namespace Lossy

variable {ρ : Type}

/-- How the store answers a call when `fate` decides, write by write, what becomes of it. -/
def answer (fate : StoreCall → ρ → Fate × ρ) : StoreAnswer (Lossy ρ)
  | .get p, s => (.ok (s.blobs.get? p), s)
  | .put p d, s =>
    match fate (.put p d) s.env with
    | (.fails e, env) => (.error e, { s with env })
    | (_, env) => (.ok (), ⟨env, s.blobs.put p d⟩)
  | .listAll, s => (.ok s.blobs.keys, s)
  | .listPrefix pre, s => (.ok (s.blobs.keysFrom pre), s)
  | .delete p, s =>
    match fate (.delete p) s.env with
    | (.fails e, env) => (.error e, { s with env })
    | (.lost, env) => (.ok (), { s with env })
    | (.done, env) => (.ok (), ⟨env, s.blobs.erase p⟩)
  | .contains p, s => (.ok (s.blobs.contains p), s)

def reliable : StoreCall → Unit → Fate × Unit :=
  fun _ _ => (.done, ())

theorem answer_reliable (c : StoreCall) (b : Blobs) :
    answer reliable c ⟨(), b⟩ = ((Blobs.answer c b).1, ⟨(), (Blobs.answer c b).2⟩) := by
  cases c <;> rfl

end Lossy

namespace Op

variable {σ τ α β : Type} (st : StoreAnswer σ) (ch : ChainAnswer τ)

/-- Runs an operation in a world: its value or fault, or the defect that stopped it, and the
world afterwards. -/
def exec (op : Op α) (w : Scene σ τ) : Except Defect (Except Fault α) × Scene σ τ :=
  Program.run (Scene.answer st ch) op.run w

@[simp] theorem exec_pure (a : α) (w : Scene σ τ) : exec st ch (pure a) w = (.ok (.ok a), w) :=
  rfl

@[simp] theorem exec_throw (e : Fault) (w : Scene σ τ) :
    exec st ch (throw e : Op α) w = (.ok (.error e), w) := rfl

theorem exec_bind (x : Op α) (f : α → Op β) (w : Scene σ τ) :
    exec st ch (x >>= f) w =
      match exec st ch x w with
      | (.ok (.ok a), w') => exec st ch (f a) w'
      | (.ok (.error e), w') => (.ok (.error e), w')
      | (.error d, w') => (.error d, w') := by
  refine (Program.run_bind (Scene.answer st ch) x.run _ w).trans ?_
  change _ = match Program.run (Scene.answer st ch) x.run w with
    | (.ok (.ok a), w') => exec st ch (f a) w'
    | (.ok (.error e), w') => (.ok (.error e), w')
    | (.error d, w') => (.error d, w')
  generalize Program.run (Scene.answer st ch) x.run w = r
  rcases r with ⟨(d | (e | a)), w'⟩ <;> rfl

theorem exec_bind_ok {x : Op α} {f : α → Op β} {w w' : Scene σ τ} {a : α}
    (h : exec st ch x w = (.ok (.ok a), w')) : exec st ch (x >>= f) w = exec st ch (f a) w' := by
  rw [exec_bind, h]

theorem exec_bind_error {x : Op α} {f : α → Op β} {w w' : Scene σ τ} {e : Fault}
    (h : exec st ch x w = (.ok (.error e), w')) :
    exec st ch (x >>= f) w = (.ok (.error e), w') := by
  rw [exec_bind, h]

theorem exec_store (c : StoreCall) (w : Scene σ τ) :
    exec st ch (store c) w =
      (.ok ((st c w.store).1.mapError StoreError.toFault),
        { w with store := (st c w.store).2, log := w.log ++ [⟨.store c, (st c w.store).1⟩] }) :=
  rfl

theorem exec_chain (c : ChainCall) (w : Scene σ τ) :
    exec st ch (chain c) w =
      (.ok (ch c w.chain).1,
        { w with chain := (ch c w.chain).2, log := w.log ++ [⟨.chain c, (ch c w.chain).1⟩] }) :=
  rfl

theorem exec_store_bind_ok {c : StoreCall} {f : c.Reply → Op β} {w : Scene σ τ} {a : c.Reply}
    (h : (st c w.store).1 = .ok a) :
    exec st ch (store c >>= f) w =
      exec st ch (f a) { w with store := (st c w.store).2, log := w.log ++ [⟨.store c, .ok a⟩] } :=
  exec_bind_ok st ch (by rw [exec_store, h]; rfl)

theorem exec_store_bind_error {c : StoreCall} {f : c.Reply → Op β} {w : Scene σ τ}
    {e : StoreError} (h : (st c w.store).1 = .error e) :
    exec st ch (store c >>= f) w =
      (.ok (.error e.toFault),
        { w with store := (st c w.store).2, log := w.log ++ [⟨.store c, .error e⟩] }) :=
  exec_bind_error st ch (by rw [exec_store, h]; rfl)

theorem exec_chain_bind_ok {c : ChainCall} {f : c.Reply → Op β} {w : Scene σ τ} {a : c.Reply}
    (h : (ch c w.chain).1 = .ok a) :
    exec st ch (chain c >>= f) w =
      exec st ch (f a) { w with chain := (ch c w.chain).2, log := w.log ++ [⟨.chain c, .ok a⟩] } :=
  exec_bind_ok st ch (by rw [exec_chain, h])

theorem exec_chain_bind_error {c : ChainCall} {f : c.Reply → Op β} {w : Scene σ τ} {e : Fault}
    (h : (ch c w.chain).1 = .error e) :
    exec st ch (chain c >>= f) w =
      (.ok (.error e), { w with chain := (ch c w.chain).2, log := w.log ++ [⟨.chain c, .error e⟩] }) :=
  exec_bind_error st ch (by rw [exec_chain, h])

theorem exec_lift (x : Program Coordination α) (w : Scene σ τ) :
    exec st ch (ExceptT.lift x) w =
      match Program.run (Scene.answer st ch) x w with
      | (.ok a, w') => (.ok (.ok a), w')
      | (.error d, w') => (.error d, w') := by
  unfold exec
  rw [show (ExceptT.lift x).run = x.bind (fun a => .pure (Except.ok (ε := Fault) a)) from rfl]
  refine (Program.run_bind (Scene.answer st ch) x _ w).trans ?_
  generalize Program.run (Scene.answer st ch) x w = r
  rcases r with ⟨_ | _, _⟩ <;> rfl

theorem exec_lift_bind (x : Program Coordination α) (f : α → Op β) (w : Scene σ τ) :
    exec st ch (ExceptT.lift x >>= f) w =
      match Program.run (Scene.answer st ch) x w with
      | (.ok a, w') => exec st ch (f a) w'
      | (.error d, w') => (.error d, w') := by
  rw [exec_bind, exec_lift]
  generalize Program.run (Scene.answer st ch) x w = r
  rcases r with ⟨_ | _, _⟩ <;> rfl

theorem exec_foldlM {γ : Type} (body : γ → String → Op γ) (step : γ → String → Except Fault γ)
    (h : ∀ acc k w, exec st ch (body acc k) w = (.ok (step acc k), w)) (keys : List String)
    (acc : γ) (w : Scene σ τ) :
    exec st ch (keys.foldlM body acc) w = (.ok (keys.foldlM step acc), w) := by
  induction keys generalizing acc with
  | nil => rfl
  | cons k ks ih =>
    simp only [List.foldlM_cons]
    rcases hs : step acc k with e | acc'
    · rw [exec_bind_error st ch ((h acc k w).trans (by rw [hs]))]
      rfl
    · rw [exec_bind_ok st ch ((h acc k w).trans (by rw [hs])), ih]
      rfl

end Op

end Quorum
