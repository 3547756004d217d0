import Flexi.Library.Checks

/-!
# Programs that keep a protocol

What a program may call next depends on the answers it has had and on what it has read
of its surroundings. A protocol says so by stages.
-/

namespace Flexi.Library

variable {Op : Type} {Res : Op → Type} {Ctx ε α β S : Type}

/-- `allows` are the calls of a stage, `next` is the stage after an answer, `reads` the one
after the surroundings have been read, and only stages in `ends` may be the last. -/
structure Protocol (Op : Type) (Res : Op → Type) (Ctx ε S : Type) where
  allows : S → Op → Prop
  next : S → (o : Op) → Except ε (Res o) → S
  reads : S → Ctx → S
  ends : S → Prop

/-- The program keeps the protocol from stage `q` on and returns in `Q`. -/
def Prog.Keeps (P : Protocol Op Res Ctx ε S) (Q : α → S → Prop) : S → Prog Op Res Ctx ε α → Prop
  | q, .ret a => Q a q
  | q, .throw _ => P.ends q
  | q, .ask k => ∀ c, (k c).Keeps P Q (P.reads q c)
  | q, .call o k => P.allows q o ∧ ∀ r, (k r).Keeps P Q (P.next q o r)

namespace Prog.Keeps

variable {P : Protocol Op Res Ctx ε S} {Q Q' : α → S → Prop} {q : S}

theorem mono {p : Prog Op Res Ctx ε α} (h : p.Keeps P Q q) (hQ : ∀ a q, Q a q → Q' a q) :
    p.Keeps P Q' q := by
  induction p generalizing q with
  | ret a => exact hQ a q h
  | throw e => exact h
  | ask k ih => exact fun c => ih c (h c)
  | call o k ih => exact ⟨h.1, fun r => ih r (h.2 r)⟩

theorem bind {R : β → S → Prop} {p : Prog Op Res Ctx ε α} {f : α → Prog Op Res Ctx ε β}
    (hp : p.Keeps P Q q) (hf : ∀ a q, Q a q → (f a).Keeps P R q) : (p >>= f).Keeps P R q := by
  induction p generalizing q with
  | ret a => exact hf a q hp
  | throw e => exact hp
  | ask k ih => exact fun c => ih c (hp c)
  | call o k ih => exact ⟨hp.1, fun r => ih r (hp.2 r)⟩

/-- Where the body fails at a stage in `M`, the handler goes on from it. -/
theorem tryCatch {M : S → Prop} {p : Prog Op Res Ctx ε α} {f : ε → Prog Op Res Ctx ε α}
    (hp : p.Keeps { P with ends := M } Q q) (hf : ∀ e q, M q → (f e).Keeps P Q q) :
    (MonadExcept.tryCatch p f).Keeps P Q q := by
  induction p generalizing q with
  | ret a => exact hp
  | throw e => exact hf e q hp
  | ask k ih => exact fun c => ih c (hp c)
  | call o k ih => exact ⟨hp.1, fun r => ih r (hp.2 r)⟩

theorem pure {a : α} (h : Q a q) : (Pure.pure a : Prog Op Res Ctx ε α).Keeps P Q q := h

theorem throw {e : ε} (h : P.ends q) :
    (MonadExcept.throw e : Prog Op Res Ctx ε α).Keeps P Q q := h

theorem await {o : Op} {Q : Res o → S → Prop} (h : P.allows q o)
    (hQ : ∀ a, Q a (P.next q o (.ok a))) (hE : ∀ e, P.ends (P.next q o (.error e))) :
    (Prog.await o : Prog Op Res Ctx ε (Res o)).Keeps P Q q := by
  refine ⟨h, fun r => ?_⟩
  cases r with
  | ok a => exact hQ a
  | error e => exact hE e

theorem read {Q : Ctx → S → Prop} (hQ : ∀ c, Q c (P.reads q c)) :
    (Prog.read : Prog Op Res Ctx ε Ctx).Keeps P Q q := hQ

theorem of_calls {p : Prog Op Res Ctx ε α} {H : Op → Prop}
    (hp : p.Calls (fun _ => True) (fun _ => True) H)
    (hcall : ∀ o, H o → P.allows q o ∧ ∀ r, P.next q o r = q) (hread : ∀ c, P.reads q c = q)
    (hends : P.ends q) : p.Keeps P (fun _ q' => q' = q) q := by
  induction p with
  | ret a => rfl
  | throw e => exact hends
  | ask k ih =>
    intro c
    rw [hread]
    exact ih c (hp c trivial)
  | call o k ih =>
    obtain ⟨hallows, hnext⟩ := hcall o hp.1
    refine ⟨hallows, fun r => ?_⟩
    rw [hnext]
    exact ih r (hp.2 r fun _ _ => trivial)

/-- As long as no answer passes and the stages stay in `J`, nothing is done that the check
guards. -/
theorem cautious {C : Check Op Res ε} {J : S → Prop} {p : Prog Op Res Ctx ε α}
    (h : p.Keeps P Q q) (hq : J q) (hallows : ∀ q o, J q → P.allows q o → ¬ C.acts o)
    (hnext : ∀ q o r, J q → P.allows q o → ¬ C.passes o r → J (P.next q o r))
    (hreads : ∀ q c, J q → J (P.reads q c)) : p.Cautious C fun _ => True := by
  induction p generalizing q with
  | ret a => trivial
  | throw e => trivial
  | ask k ih => exact fun c => ih c (h c) (hreads q c hq)
  | call o k ih =>
    exact ⟨hallows q o hq h.1, fun r hr => ih r (h.2 r) (hnext q o r hq h.1 hr)⟩

end Prog.Keeps

/-! ### Threads -/

namespace Thread

variable {P : Protocol Op Res Ctx ε S} {q : S}

/-- The thread is at stage `q`; after an answer it is at the stage the answer leads to. -/
def Keeps (P : Protocol Op Res Ctx ε S) (q : S) : Thread Op Res Ctx ε α → Prop
  | awaiting o k => (Prog.call o k).Keeps P (fun _ => P.ends) q
  | answered _ r k => (k r).Keeps P (fun _ => P.ends) q
  | finished _ => P.ends q

theorem Keeps.advance {J : S → Prop} {p : Prog Op Res Ctx ε α} {c : Ctx}
    (h : p.Keeps P (fun _ => P.ends) q) (hq : J q) (hreads : ∀ q, J q → J (P.reads q c)) :
    ∃ q', J q' ∧ (p.advance c).Keeps P q' := by
  induction p generalizing q with
  | ret a => exact ⟨q, hq, h⟩
  | throw e => exact ⟨q, hq, h⟩
  | ask k ih => exact ih c (h c) (hreads q hq)
  | call o k ih => exact ⟨q, hq, h⟩

theorem Keeps.execute {o : Op} {k : Except ε (Res o) → Prog Op Res Ctx ε α}
    (h : (Thread.awaiting o k).Keeps P q) (r : Except ε (Res o)) :
    (Thread.answered o r k).Keeps P (P.next q o r) :=
  h.2 r

theorem Of.keeps {p : Prog Op Res Ctx ε α} {t : Thread Op Res Ctx ε α} (h : Of p t)
    (hp : p.Keeps P (fun _ => P.ends) q) : ∃ q', t.Keeps P q' := by
  induction h with
  | start c =>
    obtain ⟨q', -, hq'⟩ := Keeps.advance (J := fun _ => True) (c := c) hp trivial fun _ _ => trivial
    exact ⟨q', hq'⟩
  | execute r _ ih =>
    obtain ⟨q', hq'⟩ := ih
    exact ⟨_, hq'.execute r⟩
  | deliver c _ ih =>
    obtain ⟨q', hq'⟩ := ih
    obtain ⟨q'', -, hq''⟩ := Keeps.advance (J := fun _ => True) (c := c) hq' trivial fun _ _ => trivial
    exact ⟨q'', hq''⟩

theorem Of.keeps_answered {p : Prog Op Res Ctx ε α} {o : Op} {r : Except ε (Res o)}
    {k : Except ε (Res o) → Prog Op Res Ctx ε α} (h : Of p (.answered o r k))
    (hp : p.Keeps P (fun _ => P.ends) q) :
    ∃ q', P.allows q' o ∧ (Thread.answered o r k).Keeps P (P.next q' o r) := by
  generalize ht : Thread.answered o r k = t at h
  have not_answered {p : Prog Op Res Ctx ε α} {c : Ctx} : p.advance c ≠ .answered o r k := by
    induction p with
    | ask k ih => exact ih c
    | _ => nofun
  cases h with
  | start c => exact absurd ht.symm not_answered
  | execute r h =>
    cases ht
    obtain ⟨q', hq'⟩ := h.keeps hp
    exact ⟨q', hq'.1, hq'.execute r⟩
  | deliver c h => exact absurd ht.symm not_answered

theorem Keeps.allows {o : Op} {k : Except ε (Res o) → Prog Op Res Ctx ε α}
    (h : (Thread.awaiting o k).Keeps P q) : P.allows q o :=
  h.1

theorem Keeps.cautious {C : Check Op Res ε} {J : S → Prop} {t : Thread Op Res Ctx ε α}
    (h : t.Keeps P q) (hq : J q) (hallows : ∀ q o, J q → P.allows q o → ¬ C.acts o)
    (hnext : ∀ q o r, J q → P.allows q o → ¬ C.passes o r → J (P.next q o r))
    (hreads : ∀ q c, J q → J (P.reads q c)) : t.Cautious C := by
  cases t with
  | awaiting o k => exact Prog.Keeps.cautious h hq hallows hnext hreads
  | answered o r k => exact Prog.Keeps.cautious h hq hallows hnext hreads
  | finished r => trivial

/-- `Keeps`, with what holds of the result and the last stage. -/
def KeepsTo (P : Protocol Op Res Ctx ε S) (Q : α → S → Prop) (q : S) : Thread Op Res Ctx ε α → Prop
  | awaiting o k => (Prog.call o k).Keeps P Q q
  | answered _ r k => (k r).Keeps P Q q
  | finished (.ok a) => Q a q
  | finished (.error _) => P.ends q

theorem KeepsTo.advance {Q : α → S → Prop} {p : Prog Op Res Ctx ε α} (h : p.Keeps P Q q) (c : Ctx)
    (hreads : ∀ q, P.reads q c = q) : (p.advance c).KeepsTo P Q q := by
  induction p with
  | ret a => exact h
  | throw e => exact h
  | ask k ih =>
    have hk := h c
    rw [hreads] at hk
    exact ih c hk
  | call o k ih => exact h

theorem KeepsTo.execute {Q : α → S → Prop} {o : Op} {k : Except ε (Res o) → Prog Op Res Ctx ε α}
    (h : (Thread.awaiting o k).KeepsTo P Q q) (r : Except ε (Res o)) :
    (Thread.answered o r k).KeepsTo P Q (P.next q o r) :=
  h.2 r

theorem KeepsTo.allows {Q : α → S → Prop} {o : Op} {k : Except ε (Res o) → Prog Op Res Ctx ε α}
    (h : (Thread.awaiting o k).KeepsTo P Q q) : P.allows q o :=
  h.1

end Thread

end Flexi.Library
