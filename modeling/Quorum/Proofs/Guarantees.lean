import Quorum.Proofs.Scene

/-!
# What a program guarantees

A program of requests says nothing of the replies it will get. `Program.Guarantees R P Q p` says
what `p` does in every run whose replies satisfy `R`: each request it makes satisfies `P`, and the
value it ends with satisfies `Q`. Running one program inside another keeps this, once each
request's answering program guarantees what the first relies on of the reply
(`Guarantees.interpret`); so a statement proved of a store's file system calls carries over to the
host that runs them. Programs that may fail, over `ExceptT`, get the rules of their binds, their
lists of steps and their choices.
-/

namespace Quorum

namespace Program

variable {I J : Interface} {α β : Type}

/-- In every run of `p` whose replies satisfy `R`, every request satisfies `P`, and a value it
ends with satisfies `Q`. -/
inductive Guarantees (R : (r : I.Request) → I.Reply r → Prop) (P : I.Request → Prop)
    (Q : α → Prop) : Program I α → Prop
  | pure {a : α} : Q a → Guarantees R P Q (.pure a)
  | abort (d : Defect) : Guarantees R P Q (.abort d)
  | call {r : I.Request} {next : I.Reply r → Program I α} :
      P r → (∀ x, R r x → Guarantees R P Q (next x)) → Guarantees R P Q (.call r next)

namespace Guarantees

variable {R : (r : I.Request) → I.Reply r → Prop} {P : I.Request → Prop}

theorem bind {Q : α → Prop} {Q' : β → Prop} {p : Program I α} {f : α → Program I β}
    (hp : p.Guarantees R P Q) (hf : ∀ a, Q a → (f a).Guarantees R P Q') :
    (p.bind f).Guarantees R P Q' := by
  induction hp with
  | pure ha => exact hf _ ha
  | abort d => exact .abort d
  | call hr _ ih => exact .call hr ih

theorem mono {Q Q' : α → Prop} {P' : I.Request → Prop} {p : Program I α}
    (hp : p.Guarantees R P Q) (hP : ∀ r, P r → P' r) (hQ : ∀ a, Q a → Q' a) :
    p.Guarantees R P' Q' := by
  induction hp with
  | pure ha => exact .pure (hQ _ ha)
  | abort d => exact .abort d
  | call hr _ ih => exact .call (hP _ hr) ih

theorem interpret {R' : (r : J.Request) → J.Reply r → Prop} {P' : J.Request → Prop}
    {Q : α → Prop} {p : Program I α} {h : (r : I.Request) → Program J (I.Reply r)}
    (hp : p.Guarantees R P Q) (hh : ∀ r, P r → (h r).Guarantees R' P' (R r)) :
    (p.interpret h).Guarantees R' P' Q := by
  induction hp with
  | pure ha => exact .pure ha
  | abort d => exact .abort d
  | call hr _ ih => exact (hh _ hr).bind ih

theorem ret {a : α} : (Program.pure a).Guarantees R P (fun _ => True) :=
  .pure trivial

theorem ask_bind {Q : β → Prop} {r : I.Request} {f : I.Reply r → Program I β} (hr : P r)
    (hf : ∀ x, R r x → (f x).Guarantees R P Q) : (Program.ask r >>= f).Guarantees R P Q :=
  .call hr hf

theorem call_inv {Q : α → Prop} {r : I.Request} {next : I.Reply r → Program I α}
    (h : (Program.call r next).Guarantees R P Q) : P r := by
  cases h with
  | call hr _ => exact hr

section Except

variable {ε : Type} {Q : Except ε β → Prop}

/-! Programs that may fail: a failure ends the program with no more requests. -/

theorem except_pure {a : β} (ha : Q (.ok a)) :
    (Pure.pure a : ExceptT ε (Program I) β).run.Guarantees R P Q :=
  .pure ha

theorem except_bind {Q₁ : Except ε α → Prop} {x : ExceptT ε (Program I) α}
    {f : α → ExceptT ε (Program I) β} (hx : x.run.Guarantees R P Q₁)
    (hf : ∀ a, Q₁ (.ok a) → (f a).run.Guarantees R P Q) (herr : ∀ e, Q (.error e)) :
    (x >>= f).run.Guarantees R P Q := by
  rw [ExceptT.run_bind]
  refine hx.bind fun e he => ?_
  cases e with
  | error e => exact .pure (herr e)
  | ok a => exact hf a he

theorem except_seq {x : ExceptT ε (Program I) α} {f : α → ExceptT ε (Program I) β}
    (hx : x.run.Guarantees R P (fun _ => True)) (hf : ∀ a, (f a).run.Guarantees R P Q)
    (herr : ∀ e, Q (.error e)) : (x >>= f).run.Guarantees R P Q :=
  except_bind hx (fun a _ => hf a) herr

theorem except_liftM {Q₁ : α → Prop} {p : Program I α} (hp : p.Guarantees R P Q₁) :
    (liftM p : ExceptT ε (Program I) α).run.Guarantees R P
      (fun e => ∀ a, e = .ok a → Q₁ a) :=
  hp.bind fun _ ha => .pure fun _ hb => by cases hb; exact ha

theorem except_ask_bind {r : I.Request} {f : I.Reply r → ExceptT ε (Program I) β} (hr : P r)
    (hf : ∀ x, R r x → (f x).run.Guarantees R P Q) :
    (liftM (Program.ask r) >>= f : ExceptT ε (Program I) β).run.Guarantees R P Q :=
  .call hr hf

theorem except_ite {c : Prop} [Decidable c] {x y : ExceptT ε (Program I) β}
    (hx : c → x.run.Guarantees R P Q) (hy : ¬ c → y.run.Guarantees R P Q) :
    (if c then x else y).run.Guarantees R P Q := by
  by_cases h : c
  · rw [if_pos h]
    exact hx h
  · rw [if_neg h]
    exact hy h

theorem except_forM {γ : Type} {l : List γ} {f : γ → ExceptT ε (Program I) PUnit}
    (hf : ∀ a ∈ l, (f a).run.Guarantees R P (fun _ => True)) :
    (l.forM f).run.Guarantees R P (fun _ => True) := by
  induction l with
  | nil => exact except_pure trivial
  | cons a l ih =>
    exact except_seq (hf a List.mem_cons_self)
      (fun _ => ih fun b hb => hf b (List.mem_cons_of_mem a hb)) (fun _ => trivial)

theorem except_mapM {γ δ : Type} {l : List γ} {f : γ → ExceptT ε (Program I) δ}
    (hf : ∀ a ∈ l, (f a).run.Guarantees R P (fun _ => True)) :
    (l.mapM f).run.Guarantees R P (fun _ => True) := by
  induction l with
  | nil => exact except_pure trivial
  | cons a l ih =>
    rw [List.mapM_cons]
    exact except_seq (hf a List.mem_cons_self) (fun _ => except_seq
      (ih fun b hb => hf b (List.mem_cons_of_mem a hb)) (fun _ => except_pure trivial)
      (fun _ => trivial)) (fun _ => trivial)

end Except

end Guarantees

end Program

end Quorum
