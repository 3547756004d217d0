import Flexi.Library.Async

/-!
# Rely and guarantee for asynchronous programs

A thread works on a state it shares with others. `Safe` says of a program at a
state that, as long as the others only interfere as allowed, each call it
executes keeps the guarantee, and it ends in its postcondition. An assertion
that stands between a call's issue and its delivery has to be stable under the
interference.
-/

namespace Flexi.Library

variable {Op : Type} {Res : Op → Type} {Ctx ε α β σ : Type}

/-- `sees` are the contexts a thread's code may read, `exec` the executions of its
calls, `interfere` one step of anyone else, `guarantee` what each of its own
executions has to keep. -/
structure Rules (Op : Type) (Res : Op → Type) (Ctx ε σ : Type) where
  sees : Ctx → Prop
  exec : (o : Op) → σ → σ → Except ε (Res o) → Prop
  interfere : σ → σ → Prop
  guarantee : σ → σ → Prop

namespace Rules

def rely (W : Rules Op Res Ctx ε σ) : σ → σ → Prop := Relation.ReflTransGen W.interfere

def Stable (W : Rules Op Res Ctx ε σ) (P : σ → Prop) : Prop :=
  ∀ s s', P s → W.interfere s s' → P s'

theorem Stable.rely {W : Rules Op Res Ctx ε σ} {P : σ → Prop} (h : W.Stable P) {s s' : σ} (hs : P s)
    (hr : W.rely s s') : P s' := by
  induction hr with
  | refl => exact hs
  | tail _ hstep ih => exact h _ _ ih hstep

theorem Stable.and {W : Rules Op Res Ctx ε σ} {P Q : σ → Prop} (hP : W.Stable P)
    (hQ : W.Stable Q) : W.Stable fun s => P s ∧ Q s :=
  fun s s' hs hi => ⟨hP s s' hs.1 hi, hQ s s' hs.2 hi⟩

end Rules

/-- The program meets the guarantee from `s` on and ends in `Q` or, when it
throws, in `E`. -/
def Safe (W : Rules Op Res Ctx ε σ) (Q : α → σ → Prop) (E : ε → σ → Prop) :
    Prog Op Res Ctx ε α → σ → Prop
  | .ret a, s => Q a s
  | .throw e, s => E e s
  | .ask k, s => ∀ c, W.sees c → Safe W Q E (k c) s
  | .call o k, s => ∀ s₁, W.rely s s₁ → ∀ s₂ r, W.exec o s₁ s₂ r →
      W.guarantee s₁ s₂ ∧ ∀ s₃, W.rely s₂ s₃ → Safe W Q E (k r) s₃

namespace Safe

variable {W : Rules Op Res Ctx ε σ} {Q Q' : α → σ → Prop} {E E' : ε → σ → Prop}

theorem mono {p : Prog Op Res Ctx ε α} {s : σ} (h : Safe W Q E p s) (hQ : ∀ a s, Q a s → Q' a s)
    (hE : ∀ e s, E e s → E' e s) : Safe W Q' E' p s := by
  induction p generalizing s with
  | ret a => exact hQ a s h
  | throw e => exact hE e s h
  | ask k ih => exact fun c hc => ih c (h c hc)
  | call o k ih =>
    intro s₁ h₁ s₂ r hx
    exact ⟨(h s₁ h₁ s₂ r hx).1, fun s₃ h₃ => ih r ((h s₁ h₁ s₂ r hx).2 s₃ h₃)⟩

theorem bind {p : Prog Op Res Ctx ε α} {f : α → Prog Op Res Ctx ε β} {R : β → σ → Prop} {s : σ}
    (h : Safe W Q E p s) (hf : ∀ a s, Q a s → Safe W R E (f a) s) : Safe W R E (p >>= f) s := by
  induction p generalizing s with
  | ret a => exact hf a s h
  | throw e => exact h
  | ask k ih => exact fun c hc => ih c (h c hc)
  | call o k ih =>
    intro s₁ h₁ s₂ r hx
    exact ⟨(h s₁ h₁ s₂ r hx).1, fun s₃ h₃ => ih r ((h s₁ h₁ s₂ r hx).2 s₃ h₃)⟩

theorem tryCatch {p : Prog Op Res Ctx ε α} {f : ε → Prog Op Res Ctx ε α} {M : ε → σ → Prop} {s : σ}
    (h : Safe W Q M p s) (hf : ∀ e s, M e s → Safe W Q E (f e) s) :
    Safe W Q E (MonadExcept.tryCatch p f) s := by
  induction p generalizing s with
  | ret a => exact h
  | throw e => exact hf e s h
  | ask k ih => exact fun c hc => ih c (h c hc)
  | call o k ih =>
    intro s₁ h₁ s₂ r hx
    exact ⟨(h s₁ h₁ s₂ r hx).1, fun s₃ h₃ => ih r ((h s₁ h₁ s₂ r hx).2 s₃ h₃)⟩

theorem frame {F : σ → Prop} (hF : W.Stable F)
    (hexec : ∀ o s s' r, W.exec o s s' r → F s → F s') {p : Prog Op Res Ctx ε α} {s : σ}
    (h : Safe W Q E p s) (hs : F s) : Safe W (fun a s => Q a s ∧ F s) E p s := by
  induction p generalizing s with
  | ret a => exact ⟨h, hs⟩
  | throw e => exact h
  | ask k ih => exact fun c hc => ih c (h c hc) hs
  | call o k ih =>
    intro s₁ h₁ s₂ r hx
    obtain ⟨hg, hrest⟩ := h s₁ h₁ s₂ r hx
    have hs₂ := hexec o s₁ s₂ r hx (hF.rely hs h₁)
    exact ⟨hg, fun s₃ h₃ => ih r (hrest s₃ h₃) (hF.rely hs₂ h₃)⟩

end Safe

/-! ### Proof rules -/

/-- From a state in `P` the program is safe and ends in `Q` or `E`. -/
def Outline (W : Rules Op Res Ctx ε σ) (P : σ → Prop) (p : Prog Op Res Ctx ε α)
    (Q : α → σ → Prop) (E : ε → σ → Prop) : Prop :=
  ∀ s, P s → Safe W Q E p s

namespace Outline

variable {W : Rules Op Res Ctx ε σ} {P P' : σ → Prop} {Q Q' : α → σ → Prop}
  {E E' : ε → σ → Prop}

theorem conseq {p : Prog Op Res Ctx ε α} (h : Outline W P p Q E) (hP : ∀ s, P' s → P s)
    (hQ : ∀ a s, Q a s → Q' a s) (hE : ∀ e s, E e s → E' e s) : Outline W P' p Q' E' :=
  fun s hs => (h s (hP s hs)).mono hQ hE

theorem pre {p : Prog Op Res Ctx ε α} (h : Outline W P p Q E) (hP : ∀ s, P' s → P s) :
    Outline W P' p Q E :=
  fun s hs => h s (hP s hs)

theorem frame {F : σ → Prop} {p : Prog Op Res Ctx ε α} (h : Outline W P p Q E) (hF : W.Stable F)
    (hexec : ∀ o s s' r, W.exec o s s' r → F s → F s') :
    Outline W (fun s => P s ∧ F s) p (fun a s => Q a s ∧ F s) E :=
  fun s hs => (h s hs.1).frame hF hexec hs.2

theorem pure {a : α} (h : ∀ s, P s → Q a s) :
    Outline W P (Pure.pure a : Prog Op Res Ctx ε α) Q E :=
  fun s hs => h s hs

theorem throw {e : ε} (h : ∀ s, P s → E e s) :
    Outline W P (MonadExcept.throw e : Prog Op Res Ctx ε α) Q E :=
  fun s hs => h s hs

theorem bind {p : Prog Op Res Ctx ε α} {f : α → Prog Op Res Ctx ε β} {R : β → σ → Prop}
    (hp : Outline W P p Q E) (hf : ∀ a, Outline W (Q a) (f a) R E) :
    Outline W P (p >>= f) R E :=
  fun s hs => (hp s hs).bind fun a s' h => hf a s' h

theorem tryCatch {p : Prog Op Res Ctx ε α} {f : ε → Prog Op Res Ctx ε α} {M : ε → σ → Prop}
    (hp : Outline W P p Q M) (hf : ∀ e, Outline W (M e) (f e) Q E) :
    Outline W P (MonadExcept.tryCatch p f) Q E :=
  fun s hs => (hp s hs).tryCatch fun e s' h => hf e s' h

theorem read {Q : Ctx → σ → Prop} (h : ∀ c s, W.sees c → P s → Q c s) :
    Outline W P (Prog.read : Prog Op Res Ctx ε Ctx) Q E :=
  fun s hs c hc => h c s hc hs

/-- A call needs its precondition and both its postconditions stable. -/
theorem await {o : Op} {Q : Res o → σ → Prop} (hP : W.Stable P) (hQ : ∀ a, W.Stable (Q a))
    (hE : ∀ e, W.Stable (E e))
    (ok : ∀ s s' a, P s → W.exec o s s' (.ok a) → W.guarantee s s' ∧ Q a s')
    (error : ∀ s s' e, P s → W.exec o s s' (.error e) → W.guarantee s s' ∧ E e s') :
    Outline W P (Prog.await o : Prog Op Res Ctx ε (Res o)) Q E := by
  intro s hs s₁ h₁ s₂ r hx
  have hs₁ := hP.rely hs h₁
  cases r with
  | ok a =>
    obtain ⟨hg, hq⟩ := ok s₁ s₂ a hs₁ hx
    exact ⟨hg, fun s₃ h₃ => (hQ a).rely hq h₃⟩
  | error e =>
    obtain ⟨hg, he⟩ := error s₁ s₂ e hs₁ hx
    exact ⟨hg, fun s₃ h₃ => (hE e).rely he h₃⟩

end Outline

/-! ### The calls of a program -/

/-- Along every course of answers whose errors meet `V`, read in contexts in
`sees`, the program makes only calls in `H` and throws only errors in `V`. -/
def Prog.Calls (sees : Ctx → Prop) (V : ε → Prop) (H : Op → Prop) : Prog Op Res Ctx ε α → Prop
  | .ret _ => True
  | .throw e => V e
  | .ask k => ∀ c, sees c → (k c).Calls sees V H
  | .call o k => H o ∧ ∀ r, (∀ e, r = .error e → V e) → (k r).Calls sees V H

namespace Prog.Calls

variable {sees : Ctx → Prop} {V : ε → Prop} {H H' : Op → Prop}

theorem bind {p : Prog Op Res Ctx ε α} {f : α → Prog Op Res Ctx ε β} (hp : p.Calls sees V H)
    (hf : ∀ a, (f a).Calls sees V H) : (p >>= f).Calls sees V H := by
  induction p with
  | ret a => exact hf a
  | throw e => exact hp
  | ask k ih => exact fun c hc => ih c (hp c hc)
  | call o k ih => exact ⟨hp.1, fun r hr => ih r (hp.2 r hr)⟩

theorem tryCatch {p : Prog Op Res Ctx ε α} {f : ε → Prog Op Res Ctx ε α} (hp : p.Calls sees V H)
    (hf : ∀ e, V e → (f e).Calls sees V H) : (MonadExcept.tryCatch p f).Calls sees V H := by
  induction p with
  | ret a => trivial
  | throw e => exact hf e hp
  | ask k ih => exact fun c hc => ih c (hp c hc)
  | call o k ih => exact ⟨hp.1, fun r hr => ih r (hp.2 r hr)⟩

theorem await {o : Op} (h : H o) :
    (Prog.await o : Prog Op Res Ctx ε (Res o)).Calls sees V H := by
  constructor
  · exact h
  · intro r hr
    cases r with
    | ok a => trivial
    | error e => exact hr e rfl

theorem read : (Prog.read : Prog Op Res Ctx ε Ctx).Calls sees V H := fun _ _ => trivial

theorem pure {a : α} : (Pure.pure a : Prog Op Res Ctx ε α).Calls sees V H := trivial

theorem throw {e : ε} (h : V e) :
    (MonadExcept.throw e : Prog Op Res Ctx ε α).Calls sees V H := h

theorem mono {p : Prog Op Res Ctx ε α} (hp : p.Calls sees V H) (h : ∀ o, H o → H' o) :
    p.Calls sees V H' := by
  induction p with
  | ret a => trivial
  | throw e => exact hp
  | ask k ih => exact fun c hc => ih c (hp c hc)
  | call o k ih => exact ⟨h o hp.1, fun r hr => ih r (hp.2 r hr)⟩

theorem eval {ctx : ℕ → Ctx} {perform : ℕ → (o : Op) → σ → Except ε (Res o) × σ} {I : σ → Prop}
    {p : Prog Op Res Ctx ε α} (hp : p.Calls (fun _ => True) (fun _ => True) H)
    (keep : ∀ i o s, H o → I s → I (perform i o s).2) {s : σ} (hs : I s) (i : ℕ) :
    I (p.eval ctx perform i s).2 := by
  induction p generalizing s i with
  | ret a => exact hs
  | throw e => exact hs
  | ask k ih => exact ih (ctx i) (hp (ctx i) trivial) hs i
  | call o k ih =>
    exact ih _ (hp.2 _ fun _ _ => trivial) (keep i o s hp.1 hs) (i + 1)

end Prog.Calls

/-- What all calls of a program keep holds all along it. -/
theorem Outline.of_calls {W : Rules Op Res Ctx ε σ} {P : σ → Prop} {sees : Ctx → Prop}
    {V : ε → Prop} {H : Op → Prop} {p : Prog Op Res Ctx ε α} (hp : p.Calls sees V H)
    (hsees : ∀ c, W.sees c → sees c) (hP : W.Stable P)
    (hV : ∀ o s s' e, W.exec o s s' (.error e) → V e)
    (keep : ∀ o s s' r, H o → P s → W.exec o s s' r → W.guarantee s s' ∧ P s') :
    Outline W P p (fun _ => P) fun e s => V e ∧ P s := by
  intro s hs
  induction p generalizing s with
  | ret a => exact hs
  | throw e => exact ⟨hp, hs⟩
  | ask k ih => exact fun c hc => ih c (hp c (hsees c hc)) s hs
  | call o k ih =>
    intro s₁ h₁ s₂ r hx
    obtain ⟨hg, hs₂⟩ := keep o s₁ s₂ r hp.1 (hP.rely hs h₁) hx
    have hr : ∀ e, r = .error e → V e := by
      intro e he
      subst he
      exact hV o s₁ s₂ e hx
    exact ⟨hg, fun s₃ h₃ => ih r (hp.2 r hr) s₃ (hP.rely hs₂ h₃)⟩

/-! ### Threads -/

/-- `Safe` of a thread on its way. -/
def Thread.Safe (W : Rules Op Res Ctx ε σ) (Q : α → σ → Prop) (E : ε → σ → Prop) :
    Thread Op Res Ctx ε α → σ → Prop
  | .awaiting o k, s => Library.Safe W Q E (.call o k) s
  | .answered _ r k, s => ∀ s', W.rely s s' → Library.Safe W Q E (k r) s'
  | .finished (.ok a), s => Q a s
  | .finished (.error e), s => E e s

namespace Thread.Safe

variable {W : Rules Op Res Ctx ε σ} {Q : α → σ → Prop} {E : ε → σ → Prop}
  {t t' : Thread Op Res Ctx ε α} {s s' : σ}

theorem advance {p : Prog Op Res Ctx ε α} {c : Ctx} (hc : W.sees c)
    (h : Library.Safe W Q E p s) : (p.advance c).Safe W Q E s := by
  induction p with
  | ret a => exact h
  | throw e => exact h
  | ask k ih => exact ih c (h c hc)
  | call o k ih => exact h

theorem interfere (h : t.Safe W Q E s) (hi : W.rely s s') (ho : t.op? ≠ none) :
    t.Safe W Q E s' := by
  cases t with
  | awaiting o k => exact fun s₁ h₁ => h s₁ (hi.trans h₁)
  | answered o r k => exact fun s₁ h₁ => h s₁ (hi.trans h₁)
  | finished r => exact absurd rfl ho

theorem execute {perform : (o : Op) → σ → Except ε (Res o) × σ}
    (hx : ∀ o, t.op? = some o → W.exec o s (perform o s).2 (perform o s).1)
    (h : t.Safe W Q E s) (ht : t.execute perform s = some (t', s')) :
    W.guarantee s s' ∧ t'.Safe W Q E s' := by
  cases t with
  | awaiting o k =>
    cases ht
    exact h s .refl _ _ (hx o rfl)
  | answered o r k => cases ht
  | finished r => cases ht

theorem deliver {c : Ctx} (hc : W.sees c) (h : t.Safe W Q E s) (ht : t.deliver c = some t') :
    t'.Safe W Q E s := by
  cases t with
  | awaiting o k => cases ht
  | answered o r k =>
    cases ht
    exact advance hc (h s .refl)
  | finished r => cases ht

end Thread.Safe

/-! ### A program on its own -/

/-- An uninterrupted run follows the outline. -/
theorem Safe.eval {W : Rules Op Res Ctx ε σ} {Q : α → σ → Prop} {E : ε → σ → Prop} (ctx : ℕ → Ctx)
    (perform : ℕ → (o : Op) → σ → Except ε (Res o) × σ) (hc : ∀ i, W.sees (ctx i))
    (hx : ∀ i o s, W.exec o s (perform i o s).2 (perform i o s).1)
    {p : Prog Op Res Ctx ε α} {s : σ} (h : Safe W Q E p s) (i : ℕ) :
    match p.eval ctx perform i s with
    | (.ok a, s') => Q a s'
    | (.error e, s') => E e s' := by
  induction p generalizing s i with
  | ret a => exact h
  | throw e => exact h
  | ask k ih => exact ih (ctx i) (h (ctx i) (hc i)) i
  | call o k ih => exact ih _ ((h s .refl _ _ (hx i o s)).2 _ .refl) (i + 1)

end Flexi.Library
