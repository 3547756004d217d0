import Flexi.Library.Checks

/-!
# Programs that act on a row they have looked up

Such a program asks for a row, and what it does from then on depends on the row as
it was found. `Fact` is what remains true of the row while others go on, `Q` what is
known of the thread.
-/

namespace Flexi.Library

variable {Op : Type} {Res : Op → Type} {Ctx ε α β ρ : Type}

/-- `finds` is the row in an answer, `before` are the calls up to it, `next` is the rest
of the program. -/
structure Lookup (Op : Type) (Res : Op → Type) (Ctx ε α ρ : Type) where
  finds : (o : Op) → Except ε (Res o) → Option ρ
  before : Op → Prop
  next : ρ → Prog Op Res Ctx ε α → Prop

def Prog.LooksUp (L : Lookup Op Res Ctx ε α ρ) : Prog Op Res Ctx ε α → Prop
  | .ret _ => True
  | .throw _ => True
  | .ask k => ∀ c, (k c).LooksUp L
  | .call o k => L.before o ∧ ∀ r, match L.finds o r with
    | some x => L.next x (k r)
    | none => (k r).LooksUp L

namespace Prog.LooksUp

variable {L : Lookup Op Res Ctx ε α ρ}

theorem throw {e : ε} : (MonadExcept.throw e : Prog Op Res Ctx ε α).LooksUp L := trivial

theorem skip {p : Prog Op Res Ctx ε β} {f : β → Prog Op Res Ctx ε α} {H : Op → Prop}
    (hp : p.Calls (fun _ => True) (fun _ => True) H)
    (hH : ∀ o, H o → L.before o ∧ ∀ r, L.finds o r = none) (hf : ∀ a, (f a).LooksUp L) :
    (p >>= f).LooksUp L := by
  induction p with
  | ret a => exact hf a
  | throw e => trivial
  | ask k ih => exact fun c => ih c (hp c trivial)
  | call o k ih =>
    refine ⟨(hH o hp.1).1, fun r => ?_⟩
    rw [(hH o hp.1).2 r]
    exact ih r (hp.2 r fun _ _ => trivial)

theorem await {o : Op} {f : Res o → Prog Op Res Ctx ε α} (ho : L.before o)
    (hfound : ∀ a x, L.finds o (.ok a) = some x → L.next x (f a))
    (hmissed : ∀ a, L.finds o (.ok a) = none → (f a).LooksUp L)
    (herror : ∀ e, L.finds o (.error e) = none) : (Prog.await o >>= f).LooksUp L := by
  refine ⟨ho, fun r => ?_⟩
  cases r with
  | error e =>
    rw [herror e]
    trivial
  | ok a =>
    cases hx : L.finds o (.ok a) with
    | none => exact hmissed a hx
    | some x => exact hfound a x hx

end Prog.LooksUp

/-! ### Threads -/

/-- Where a thread stands in such a program. -/
inductive Thread.At (L : Lookup Op Res Ctx ε α ρ) (Fact : ρ → Prop)
    (Q : ρ → Thread Op Res Ctx ε α → Prop) : Thread Op Res Ctx ε α → Prop
  | ended (r : Except ε α) : At L Fact Q (.finished r)
  | looking {o : Op} {k : Except ε (Res o) → Prog Op Res Ctx ε α} :
      (Prog.call o k).LooksUp L → At L Fact Q (.awaiting o k)
  | missed {o : Op} {r : Except ε (Res o)} {k : Except ε (Res o) → Prog Op Res Ctx ε α} :
      (k r).LooksUp L → At L Fact Q (.answered o r k)
  | found {o : Op} {r : Except ε (Res o)} {k : Except ε (Res o) → Prog Op Res Ctx ε α} {x : ρ} :
      L.finds o r = some x → Fact x → L.next x (k r) → At L Fact Q (.answered o r k)
  | past {t : Thread Op Res Ctx ε α} {x : ρ} : Fact x → Q x t → At L Fact Q t

namespace Thread.At

variable {L : Lookup Op Res Ctx ε α ρ} {Fact Fact' : ρ → Prop}
  {Q Q' : ρ → Thread Op Res Ctx ε α → Prop}

theorem mono {t : Thread Op Res Ctx ε α} (h : t.At L Fact Q) (hF : ∀ x, Fact x → Fact' x)
    (hQ : ∀ x, Q x t → Q' x t) : t.At L Fact' Q' := by
  cases h with
  | ended r => exact .ended r
  | looking h => exact .looking h
  | missed h => exact .missed h
  | found hx hf hn => exact .found hx (hF _ hf) hn
  | past hf hq => exact .past (hF _ hf) (hQ _ hq)

theorem advance {p : Prog Op Res Ctx ε α} (h : p.LooksUp L) (c : Ctx) :
    (p.advance c).At L Fact Q := by
  induction p with
  | ret a => exact .ended _
  | throw e => exact .ended _
  | ask k ih => exact ih c (h c)
  | call o k ih => exact .looking h

theorem execute {o : Op} {k : Except ε (Res o) → Prog Op Res Ctx ε α} {r : Except ε (Res o)}
    (h : (Thread.awaiting o k).At L Fact Q) (hF : ∀ x, Fact x → Fact' x)
    (hfinds : ∀ x, L.finds o r = some x → Fact' x)
    (hQ : ∀ x, Fact x → Q x (.awaiting o k) → Q' x (.answered o r k)) :
    (Thread.answered o r k).At L Fact' Q' := by
  cases h with
  | looking h =>
    have hr := h.2 r
    cases hx : L.finds o r with
    | none =>
      rw [hx] at hr
      exact .missed hr
    | some x =>
      rw [hx] at hr
      exact .found hx (hfinds x hx) hr
  | past hf hq => exact .past (hF _ hf) (hQ _ hf hq)

theorem deliver {o : Op} {k : Except ε (Res o) → Prog Op Res Ctx ε α} {r : Except ε (Res o)}
    {c : Ctx} (h : (Thread.answered o r k).At L Fact Q)
    (hstart : ∀ x p, Fact x → L.next x p → Q x (p.advance c))
    (hQ : ∀ x, Q x (.answered o r k) → Q x ((k r).advance c)) :
    ((k r).advance c).At L Fact Q := by
  cases h with
  | missed h => exact advance h c
  | found hx hf hn => exact .past hf (hstart _ _ hf hn)
  | past hf hq => exact .past hf (hQ _ hq)

end Thread.At

end Flexi.Library
