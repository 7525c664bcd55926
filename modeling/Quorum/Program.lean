/-!
# Programs over an interface

An interface is a set of requests, each with the type of its reply. A program over an interface
makes requests one at a time, each next step chosen by the reply to the last, and ends with a
value, or stops on a defect, a fault of the program itself such as an arithmetic overflow, which
ends the whole run. A program only describes what it asks; running it against a way of answering
the requests, with a state that the answers change, gives its value or defect and the final
state.

Programs make the services an operation talks to explicit: a statement about an operation can
quantify over every way of answering, and can watch each single request.
-/

namespace Quorum

/-- A set of requests, each with the type of its reply. -/
structure Interface where
  Request : Type
  Reply : Request → Type

/-- A fault of a program itself, which ends the whole run. -/
structure Defect where
  message : String
  deriving DecidableEq, Repr

/-- A program that makes requests of the interface `I` and ends with a value of type `α`. -/
inductive Program (I : Interface) (α : Type) where
  | pure (a : α)
  | call (r : I.Request) (next : I.Reply r → Program I α)
  | abort (d : Defect)

namespace Program

variable {I : Interface} {α β σ : Type}

def bind : Program I α → (α → Program I β) → Program I β
  | .pure a, f => f a
  | .call r next, f => .call r (fun x => (next x).bind f)
  | .abort d, _ => .abort d

instance : Monad (Program I) where
  pure := .pure
  bind := bind

def map (f : α → β) (p : Program I α) : Program I β :=
  p.bind fun a => .pure (f a)

def ask (r : I.Request) : Program I (I.Reply r) :=
  .call r .pure

/-- Replaces every request of a program by a program of another interface that answers it. -/
def interpret {J : Interface} (h : (r : I.Request) → Program J (I.Reply r)) :
    Program I α → Program J α
  | .pure a => .pure a
  | .call r next => (h r).bind fun x => interpret h (next x)
  | .abort d => .abort d

def run (answer : (r : I.Request) → σ → I.Reply r × σ) : Program I α → σ → Except Defect α × σ
  | .pure a, s => (.ok a, s)
  | .call r next, s =>
    let (x, s') := answer r s
    run answer (next x) s'
  | .abort d, s => (.error d, s)

@[simp] theorem run_pure (answer : (r : I.Request) → σ → I.Reply r × σ) (a : α) (s : σ) :
    run answer (.pure a) s = (.ok a, s) := rfl

@[simp] theorem run_call (answer : (r : I.Request) → σ → I.Reply r × σ) (r : I.Request)
    (next : I.Reply r → Program I α) (s : σ) :
    run answer (.call r next) s = run answer (next (answer r s).1) (answer r s).2 := rfl

@[simp] theorem run_abort (answer : (r : I.Request) → σ → I.Reply r × σ) (d : Defect) (s : σ) :
    run answer (.abort d : Program I α) s = (.error d, s) := rfl

theorem run_bind (answer : (r : I.Request) → σ → I.Reply r × σ) (p : Program I α)
    (f : α → Program I β) (s : σ) :
    run answer (p.bind f) s =
      match run answer p s with
      | (.ok a, s') => run answer (f a) s'
      | (.error d, s') => (.error d, s') := by
  induction p generalizing s with
  | pure a => rfl
  | call r next ih => exact ih (answer r s).1 (answer r s).2
  | abort d => rfl

end Program

end Quorum
