import Flexi.Library.Async

/-!
# Programs whose caller may give them up

A cancelled program is not stopped: it goes on with the answers of what it has
already asked for, and only notices where it looks. `Fenced` says of a program
that it does no harm once it is cancelled, `Guarded` that this is so wherever the
cancellation catches it. `U` are the answers after which nothing is promised.
-/

namespace Flexi.Library

variable {Op : Type} {Res : Op → Type} {Ctx ε α β : Type}

/-- `cancelled` are the contexts in which the code can notice, `H` the harmless
calls. -/
structure Fence (Op : Type) (Res : Op → Type) (Ctx ε : Type) where
  cancelled : Ctx → Prop
  H : Op → Prop
  U : (o : Op) → Except ε (Res o) → Prop

/-- Run under a cancellation, the program makes harmless calls only, and ends in
`Q` or throws in `E`. -/
def Fenced (F : Fence Op Res Ctx ε) (Q : α → Prop) (E : ε → Prop) : Prog Op Res Ctx ε α → Prop
  | .ret a => Q a
  | .throw e => E e
  | .ask k => ∀ c, F.cancelled c → Fenced F Q E (k c)
  | .call o k => F.H o ∧ ∀ r, ¬ F.U o r → Fenced F Q E (k r)

/-- At whichever call the program is cancelled, what follows is fenced. -/
def Guarded (F : Fence Op Res Ctx ε) (Q : α → Prop) (E : ε → Prop) : Prog Op Res Ctx ε α → Prop
  | .ret _ => True
  | .throw _ => True
  | .ask k => ∀ c, Guarded F Q E (k c)
  | .call o k => (∀ r, ¬ F.U o r → Fenced F Q E (k r)) ∧ ∀ r, Guarded F Q E (k r)

variable {F : Fence Op Res Ctx ε} {Q Q' : α → Prop} {E E' : ε → Prop} {p : Prog Op Res Ctx ε α}

namespace Fenced

theorem mono (h : Fenced F Q E p) (hQ : ∀ a, Q a → Q' a) (hE : ∀ e, E e → E' e) :
    Fenced F Q' E' p := by
  induction p with
  | ret a => exact hQ a h
  | throw e => exact hE e h
  | ask k ih => exact fun c hc => ih c (h c hc)
  | call o k ih => exact ⟨h.1, fun r hr => ih r (h.2 r hr)⟩

theorem bind {f : α → Prog Op Res Ctx ε β} {R : β → Prop} (h : Fenced F Q E p)
    (hf : ∀ a, Q a → Fenced F R E (f a)) : Fenced F R E (p >>= f) := by
  induction p with
  | ret a => exact hf a h
  | throw e => exact h
  | ask k ih => exact fun c hc => ih c (h c hc)
  | call o k ih => exact ⟨h.1, fun r hr => ih r (h.2 r hr)⟩

theorem tryCatch {T : ε → Prop} {f : ε → Prog Op Res Ctx ε α} (h : Fenced F Q T p)
    (hf : ∀ e, T e → Fenced F Q E (f e)) : Fenced F Q E (MonadExcept.tryCatch p f) := by
  induction p with
  | ret a => exact h
  | throw e => exact hf e h
  | ask k ih => exact fun c hc => ih c (h c hc)
  | call o k ih => exact ⟨h.1, fun r hr => ih r (h.2 r hr)⟩

theorem await {o : Op} {Q : Res o → Prop} (ho : F.H o) (hQ : ∀ a, ¬ F.U o (.ok a) → Q a)
    (hE : ∀ e, ¬ F.U o (.error e) → E e) :
    Fenced F Q E (Prog.await o : Prog Op Res Ctx ε (Res o)) := by
  refine ⟨ho, fun r hr => ?_⟩
  cases r with
  | ok a => exact hQ a hr
  | error e => exact hE e hr

end Fenced

namespace Guarded

theorem bind {f : α → Prog Op Res Ctx ε β} {R : β → Prop} (h : Guarded F Q E p)
    (hf : ∀ a, Q a → Fenced F R E (f a)) (hg : ∀ a, Guarded F R E (f a)) :
    Guarded F R E (p >>= f) := by
  induction p with
  | ret a => exact hg a
  | throw e => trivial
  | ask k ih => exact fun c => ih c (h c)
  | call o k ih => exact ⟨fun r hr => (h.1 r hr).bind hf, fun r => ih r (h.2 r)⟩

theorem tryCatch {T : ε → Prop} {f : ε → Prog Op Res Ctx ε α} (h : Guarded F Q T p)
    (hf : ∀ e, T e → Fenced F Q E (f e)) (hg : ∀ e, Guarded F Q E (f e)) :
    Guarded F Q E (MonadExcept.tryCatch p f) := by
  induction p with
  | ret a => trivial
  | throw e => exact hg e
  | ask k ih => exact fun c => ih c (h c)
  | call o k ih => exact ⟨fun r hr => (h.1 r hr).tryCatch hf, fun r => ih r (h.2 r)⟩

theorem await {o : Op} {Q : Res o → Prop} (hQ : ∀ a, ¬ F.U o (.ok a) → Q a)
    (hE : ∀ e, ¬ F.U o (.error e) → E e) :
    Guarded F Q E (Prog.await o : Prog Op Res Ctx ε (Res o)) := by
  constructor
  · intro r hr
    cases r with
    | ok a => exact hQ a hr
    | error e => exact hE e hr
  · intro r
    cases r <;> trivial

end Guarded

/-! ### Threads -/

/-- A cancelled thread whose call was issued under the cancellation. -/
def Thread.Fenced (F : Fence Op Res Ctx ε) (Q : α → Prop) (E : ε → Prop) :
    Thread Op Res Ctx ε α → Prop
  | .awaiting o k => Library.Fenced F Q E (.call o k)
  | .answered o r k => ¬ F.U o r → Library.Fenced F Q E (k r)
  | .finished _ => True

/-- A thread that may be cancelled at any time. -/
def Thread.Guarded (F : Fence Op Res Ctx ε) (Q : α → Prop) (E : ε → Prop) :
    Thread Op Res Ctx ε α → Prop
  | .awaiting o k => Library.Guarded F Q E (.call o k)
  | .answered o r k => (¬ F.U o r → Library.Fenced F Q E (k r)) ∧ Library.Guarded F Q E (k r)
  | .finished _ => True

/-- The answer that is about to be delivered to a thread, if it is one of `U`. -/
def Thread.Astray (F : Fence Op Res Ctx ε) : Thread Op Res Ctx ε α → Prop
  | .answered o r _ => F.U o r
  | _ => False

namespace Thread

variable {t t' : Thread Op Res Ctx ε α} {c : Ctx} {σ : Type} {s s' : σ}
  {perform : (o : Op) → σ → Except ε (Res o) × σ}

theorem Guarded.advance (h : Library.Guarded F Q E p) (c : Ctx) : (p.advance c).Guarded F Q E := by
  induction p with
  | ret a => trivial
  | throw e => trivial
  | ask k ih => exact ih c (h c)
  | call o k ih => exact h

theorem Fenced.advance (h : Library.Fenced F Q E p) (hc : F.cancelled c) :
    (p.advance c).Fenced F Q E := by
  induction p with
  | ret a => trivial
  | throw e => trivial
  | ask k ih => exact ih c (h c hc)
  | call o k ih => exact h

theorem Guarded.execute (h : t.Guarded F Q E) (hx : t.execute perform s = some (t', s')) :
    t'.Guarded F Q E := by
  cases t with
  | awaiting o k =>
    cases hx
    exact ⟨h.1 _, h.2 _⟩
  | answered o r k => cases hx
  | finished r => cases hx

theorem Fenced.execute (h : t.Fenced F Q E) (hx : t.execute perform s = some (t', s')) :
    t'.Fenced F Q E := by
  cases t with
  | awaiting o k =>
    cases hx
    exact h.2 _
  | answered o r k => cases hx
  | finished r => cases hx

theorem Guarded.deliver (h : t.Guarded F Q E) (hx : t.deliver c = some t') :
    t'.Guarded F Q E := by
  cases t with
  | awaiting o k => cases hx
  | answered o r k =>
    cases hx
    exact Guarded.advance h.2 c
  | finished r => cases hx

/-- An admitted answer under the cancellation fences the thread for good. -/
theorem Guarded.deliver_fenced (h : t.Guarded F Q E) (hu : ¬ t.Astray F) (hc : F.cancelled c)
    (hx : t.deliver c = some t') : t'.Fenced F Q E := by
  cases t with
  | awaiting o k => cases hx
  | answered o r k =>
    cases hx
    exact Fenced.advance (h.1 hu) hc
  | finished r => cases hx

theorem Fenced.deliver (h : t.Fenced F Q E) (hu : ¬ t.Astray F) (hc : F.cancelled c)
    (hx : t.deliver c = some t') : t'.Fenced F Q E := by
  cases t with
  | awaiting o k => cases hx
  | answered o r k =>
    cases hx
    exact Fenced.advance (h hu) hc
  | finished r => cases hx

end Thread

end Flexi.Library
