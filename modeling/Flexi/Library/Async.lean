import Mathlib.Tactic

/-!
# Asynchronous programs

A program runs until it awaits a call to the outside, and goes on with the
answer. What it reads of its surroundings in between (a clock, an abort signal)
is a context, read at the moment the code reads it. A thread is a program on its
way: between the issue of a call, its execution and the delivery of its answer
anything else may happen.
-/

namespace Flexi.Library

/-- `Res o` is what call `o` answers, `Ctx` what the code reads without waiting,
`ε` what it throws. -/
inductive Prog (Op : Type) (Res : Op → Type) (Ctx ε α : Type) where
  | ret (a : α)
  | throw (e : ε)
  | ask (k : Ctx → Prog Op Res Ctx ε α)
  | call (o : Op) (k : Except ε (Res o) → Prog Op Res Ctx ε α)

namespace Prog

variable {Op : Type} {Res : Op → Type} {Ctx ε α β γ : Type}

def bind : Prog Op Res Ctx ε α → (α → Prog Op Res Ctx ε β) → Prog Op Res Ctx ε β
  | ret a, f => f a
  | throw e, _ => throw e
  | ask k, f => ask fun c => (k c).bind f
  | call o k, f => call o fun r => (k r).bind f

def tryCatch : Prog Op Res Ctx ε α → (ε → Prog Op Res Ctx ε α) → Prog Op Res Ctx ε α
  | ret a, _ => ret a
  | throw e, h => h e
  | ask k, h => ask fun c => (k c).tryCatch h
  | call o k, h => call o fun r => (k r).tryCatch h

instance : Monad (Prog Op Res Ctx ε) where
  pure := ret
  bind := bind

instance : MonadExceptOf ε (Prog Op Res Ctx ε) where
  throw := throw
  tryCatch := tryCatch

/-- The program that awaits one call. -/
def await (o : Op) : Prog Op Res Ctx ε (Res o) :=
  call o fun r => match r with
    | .ok a => ret a
    | .error e => throw e

/-- The program that reads its surroundings. -/
def read : Prog Op Res Ctx ε Ctx := ask ret

@[simp] theorem pure_eq (a : α) : (pure a : Prog Op Res Ctx ε α) = ret a := rfl
@[simp] theorem ret_bind (a : α) (f : α → Prog Op Res Ctx ε β) : (ret a >>= f) = f a := rfl
@[simp] theorem throw_bind (e : ε) (f : α → Prog Op Res Ctx ε β) : (throw e >>= f) = throw e := rfl
@[simp] theorem ask_bind (k : Ctx → Prog Op Res Ctx ε α) (f : α → Prog Op Res Ctx ε β) :
    (ask k >>= f) = ask fun c => k c >>= f := rfl
@[simp] theorem call_bind (o : Op) (k : Except ε (Res o) → Prog Op Res Ctx ε α)
    (f : α → Prog Op Res Ctx ε β) : (call o k >>= f) = call o fun r => k r >>= f := rfl

end Prog

/-! ### Threads -/

inductive Thread (Op : Type) (Res : Op → Type) (Ctx ε α : Type) where
  | awaiting (o : Op) (k : Except ε (Res o) → Prog Op Res Ctx ε α)
  | answered (o : Op) (r : Except ε (Res o)) (k : Except ε (Res o) → Prog Op Res Ctx ε α)
  | finished (r : Except ε α)

variable {Op : Type} {Res : Op → Type} {Ctx ε α β σ : Type}

/-- The code up to the next call or the end; everything it reads on the way is
read in the context `c`. -/
def Prog.advance (c : Ctx) : Prog Op Res Ctx ε α → Thread Op Res Ctx ε α
  | .ret a => .finished (.ok a)
  | .throw e => .finished (.error e)
  | .ask k => (k c).advance c
  | .call o k => .awaiting o k

namespace Thread

/-- The call a thread is at: issued and not yet executed, or executed and not yet
delivered. -/
def op? : Thread Op Res Ctx ε α → Option Op
  | awaiting o _ => some o
  | answered o _ _ => some o
  | finished _ => none

/-- The awaited call is executed. -/
def execute (perform : (o : Op) → σ → Except ε (Res o) × σ) :
    Thread Op Res Ctx ε α → σ → Option (Thread Op Res Ctx ε α × σ)
  | awaiting o k, s => some (answered o (perform o s).1 k, (perform o s).2)
  | _, _ => none

/-- The answer is delivered and the code goes on. -/
def deliver (c : Ctx) : Thread Op Res Ctx ε α → Option (Thread Op Res Ctx ε α)
  | answered _ r k => some ((k r).advance c)
  | _ => none

end Thread

/-! ### A program on its own -/

/-- Runs a program without interruption: `perform i` executes its `i`-th call and
`ctx i` is what the code reads before it. -/
def Prog.eval (ctx : ℕ → Ctx) (perform : ℕ → (o : Op) → σ → Except ε (Res o) × σ) :
    ℕ → Prog Op Res Ctx ε α → σ → Except ε α × σ
  | _, .ret a, s => (.ok a, s)
  | _, .throw e, s => (.error e, s)
  | i, .ask k, s => (k (ctx i)).eval ctx perform i s
  | i, .call o k, s => (k (perform i o s).1).eval ctx perform (i + 1) (perform i o s).2

/-- What every call keeps, the program keeps. -/
theorem Prog.eval_invariant {ctx : ℕ → Ctx} {perform : ℕ → (o : Op) → σ → Except ε (Res o) × σ}
    {I : σ → Prop} (keep : ∀ i o s, I s → I (perform i o s).2) {p : Prog Op Res Ctx ε α} {s : σ}
    (hs : I s) (i : ℕ) : I (p.eval ctx perform i s).2 := by
  induction p generalizing s i with
  | ret a => exact hs
  | throw e => exact hs
  | ask k ih => exact ih (ctx i) hs i
  | call o k ih => exact ih _ (keep i o s hs) (i + 1)

end Flexi.Library
