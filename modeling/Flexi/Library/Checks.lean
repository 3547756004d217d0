import Flexi.Library.RelyGuarantee

/-!
# Checks and the calls that rely on them

Code that asks first and acts later: between the answer it has checked and the
call that relies on it, anything else may happen. A cautious program has to see a
passing answer before it acts; a thread that is not cautious is past a check and
may still act on it.
-/

namespace Flexi.Library

variable {Op : Type} {Res : Op → Type} {Ctx ε α β σ : Type}

/-- `passes` are the answers that let the code act, `acts` the calls it then makes. -/
structure Check (Op : Type) (Res : Op → Type) (ε : Type) where
  passes : (o : Op) → Except ε (Res o) → Prop
  acts : Op → Prop

/-- The program acts only on answers that it has yet to see; what it returns without
such an answer is in `Q`. -/
def Prog.Cautious (C : Check Op Res ε) (Q : α → Prop) : Prog Op Res Ctx ε α → Prop
  | .ret a => Q a
  | .throw _ => True
  | .ask k => ∀ c, (k c).Cautious C Q
  | .call o k => ¬ C.acts o ∧ ∀ r, ¬ C.passes o r → (k r).Cautious C Q

namespace Prog.Cautious

variable {C : Check Op Res ε} {Q Q' : α → Prop}

theorem mono {p : Prog Op Res Ctx ε α} (h : p.Cautious C Q) (hQ : ∀ a, Q a → Q' a) :
    p.Cautious C Q' := by
  induction p with
  | ret a => exact hQ a h
  | throw e => trivial
  | ask k ih => exact fun c => ih c (h c)
  | call o k ih => exact ⟨h.1, fun r hr => ih r (h.2 r hr)⟩

theorem bind {R : β → Prop} {p : Prog Op Res Ctx ε α} {f : α → Prog Op Res Ctx ε β}
    (hp : p.Cautious C Q) (hf : ∀ a, Q a → (f a).Cautious C R) : (p >>= f).Cautious C R := by
  induction p with
  | ret a => exact hf a hp
  | throw e => trivial
  | ask k ih => exact fun c => ih c (hp c)
  | call o k ih => exact ⟨hp.1, fun r hr => ih r (hp.2 r hr)⟩

theorem await {o : Op} {Q : Res o → Prop} (h : ¬ C.acts o)
    (hQ : ∀ a, ¬ C.passes o (.ok a) → Q a) :
    (Prog.await o : Prog Op Res Ctx ε (Res o)).Cautious C Q := by
  constructor
  · exact h
  · intro r hr
    cases r with
    | ok a => exact hQ a hr
    | error e => trivial

theorem read : (Prog.read : Prog Op Res Ctx ε Ctx).Cautious C fun _ => True := fun _ => trivial

theorem pure {a : α} (h : Q a) : (Pure.pure a : Prog Op Res Ctx ε α).Cautious C Q := h

theorem of_calls {p : Prog Op Res Ctx ε α} {H : Op → Prop}
    (hp : p.Calls (fun _ => True) (fun _ => True) H) (h : ∀ o, H o → ¬ C.acts o) :
    p.Cautious C fun _ => True := by
  induction p with
  | ret a => trivial
  | throw e => trivial
  | ask k ih => exact fun c => ih c (hp c trivial)
  | call o k ih => exact ⟨h o hp.1, fun r _ => ih r (hp.2 r fun _ _ => trivial)⟩

end Prog.Cautious

/-! ### Threads -/

namespace Thread

/-- The thread is the program on its way. -/
inductive Of (p : Prog Op Res Ctx ε α) : Thread Op Res Ctx ε α → Prop
  | start (c : Ctx) : Of p (p.advance c)
  | execute {o : Op} {k : Except ε (Res o) → Prog Op Res Ctx ε α} (r : Except ε (Res o)) :
      Of p (.awaiting o k) → Of p (.answered o r k)
  | deliver {o : Op} {r : Except ε (Res o)} {k : Except ε (Res o) → Prog Op Res Ctx ε α} (c : Ctx) :
      Of p (.answered o r k) → Of p ((k r).advance c)

/-- The calls a thread is at or still to make are all in `H`. -/
def Calls (H : Op → Prop) : Thread Op Res Ctx ε α → Prop
  | awaiting o k => (Prog.call o k).Calls (fun _ => True) (fun _ => True) H
  | answered o r k => H o ∧ (k r).Calls (fun _ => True) (fun _ => True) H
  | finished _ => True

/-- `Prog.Cautious` of a thread on its way. -/
def Cautious (C : Check Op Res ε) : Thread Op Res Ctx ε α → Prop
  | awaiting o k => (Prog.call o k).Cautious C fun _ => True
  | answered _ r k => (k r).Cautious C fun _ => True
  | finished _ => True

theorem Calls.advance {H : Op → Prop} {p : Prog Op Res Ctx ε α}
    (h : p.Calls (fun _ => True) (fun _ => True) H) (c : Ctx) : (p.advance c).Calls H := by
  induction p with
  | ret a => trivial
  | throw e => trivial
  | ask k ih => exact ih c (h c trivial)
  | call o k ih => exact h

theorem Cautious.advance {C : Check Op Res ε} {p : Prog Op Res Ctx ε α}
    (h : p.Cautious C fun _ => True) (c : Ctx) : (p.advance c).Cautious C := by
  induction p with
  | ret a => trivial
  | throw e => trivial
  | ask k ih => exact ih c (h c)
  | call o k ih => exact h

theorem Of.calls {H : Op → Prop} {p : Prog Op Res Ctx ε α}
    (hp : p.Calls (fun _ => True) (fun _ => True) H) {t : Thread Op Res Ctx ε α} (h : Of p t) :
    t.Calls H := by
  induction h with
  | start c => exact Calls.advance hp c
  | execute r _ ih => exact ⟨ih.1, ih.2 r fun _ _ => trivial⟩
  | deliver c _ ih => exact Calls.advance ih.2 c

theorem Calls.op {H : Op → Prop} {t : Thread Op Res Ctx ε α} (h : t.Calls H) {o : Op}
    (ho : t.op? = some o) : H o := by
  cases t with
  | awaiting o' k =>
    cases ho
    exact h.1
  | answered o' r k =>
    cases ho
    exact h.1
  | finished r => cases ho

theorem Calls.cautious {C : Check Op Res ε} {H : Op → Prop} {t : Thread Op Res Ctx ε α}
    (h : t.Calls H) (hH : ∀ o, H o → ¬ C.acts o) : t.Cautious C := by
  cases t with
  | awaiting o k => exact (Prog.Cautious.of_calls h hH).mono fun _ _ => trivial
  | answered o r k => exact (Prog.Cautious.of_calls h.2 hH).mono fun _ _ => trivial
  | finished r => trivial

/-- An answer that does not pass leaves a cautious thread cautious. -/
theorem Cautious.answer {C : Check Op Res ε} {o : Op} {r : Except ε (Res o)}
    {k : Except ε (Res o) → Prog Op Res Ctx ε α} (h : (Thread.awaiting o k).Cautious C)
    (hr : ¬ C.passes o r) : (Thread.answered o r k).Cautious C :=
  h.2 r hr

theorem Cautious.deliver {C : Check Op Res ε} {o : Op} {r : Except ε (Res o)}
    {k : Except ε (Res o) → Prog Op Res Ctx ε α} (h : (Thread.answered o r k).Cautious C) (c : Ctx) :
    ((k r).advance c).Cautious C :=
  Cautious.advance h c

theorem Cautious.not_acts {C : Check Op Res ε} {o : Op}
    {k : Except ε (Res o) → Prog Op Res Ctx ε α} (h : (Thread.awaiting o k).Cautious C) :
    ¬ C.acts o :=
  h.1

end Thread

end Flexi.Library
