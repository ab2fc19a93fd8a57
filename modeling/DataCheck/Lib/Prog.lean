import Mathlib.Logic.Basic
import Mathlib.Logic.Function.Basic

/-!
# Programs over effects

A program is a tree of effects: it stops with a value, or performs an effect and goes on with the
answer.  `Op` is the monad of method bodies on top of it: local variables that survive an
exception, and exceptions that a handler can catch.  Nothing here says what an effect does; a
machine does (`DataCheck.Lib.Threads`).
-/

namespace DataCheck.Lib

/-- A program that performs effects `e : E`, each answered by a value of type `R e`, and stops
with a value of type `α`. -/
inductive Prog (E : Type) (R : E → Type) (α : Type) where
  | ret (a : α)
  | vis (e : E) (k : R e → Prog E R α)

namespace Prog

variable {E : Type} {R : E → Type} {α β γ : Type}

/-- Run `f` on the value a program stops with. -/
def bind : Prog E R α → (α → Prog E R β) → Prog E R β
  | .ret a, f => f a
  | .vis e k, f => .vis e fun r => (k r).bind f

@[simp] lemma ret_bind (a : α) (f : α → Prog E R β) : (Prog.ret a).bind f = f a := rfl

@[simp] lemma vis_bind (e : E) (k : R e → Prog E R α) (f : α → Prog E R β) :
    (Prog.vis e k).bind f = .vis e fun r => (k r).bind f := rfl

end Prog

/-- The body of a method: local variables of type `σ`, exceptions of type `X`; an effect answers
with a value or with an exception.  The local variables are there after an exception too. -/
def Op (E : Type) (A : E → Type) (X σ α : Type) : Type :=
  σ → Prog E (fun e => Except X (A e)) (Except X α × σ)

namespace Op

variable {E : Type} {A : E → Type} {X σ τ α β : Type}

/-- `return a` -/
def pure (a : α) : Op E A X σ α := fun s => .ret (.ok a, s)

/-- `raise x` -/
def raise (x : X) : Op E A X σ α := fun s => .ret (.error x, s)

def perform (e : E) : Op E A X σ (A e) := fun s => .vis e fun r => .ret (r, s)

/-- One statement, then the rest. -/
def bind (m : Op E A X σ α) (f : α → Op E A X σ β) : Op E A X σ β := fun s =>
  (m s).bind fun
    | (.ok a, s') => f a s'
    | (.error x, s') => .ret (.error x, s')

instance : Monad (Op E A X σ) where
  pure := Op.pure
  bind := Op.bind

/-- `try: m` / `except BaseException as x: h x` -/
def catching (m : Op E A X σ α) (h : X → Op E A X σ α) : Op E A X σ α := fun s =>
  (m s).bind fun
    | (.ok a, s') => .ret (.ok a, s')
    | (.error x, s') => h x s'

/-- Run `m` with local variables of its own, starting from `init`: its result or the exception it
raised, and its variables at that point. -/
def withLocals (init : τ) (m : Op E A X τ α) : Op E A X σ (Except X α × τ) := fun s =>
  (m init).bind fun out => .ret (.ok out, s)

def assign (f : σ → σ) : Op E A X σ Unit := fun s => .ret (.ok (), f s)

/-- A result that is already there, or an exception. -/
def ofExcept : Except X α → Op E A X σ α
  | .ok a => .pure a
  | .error x => .raise x

end Op

end DataCheck.Lib
