import Flexi.Library.Protocol
import Flexi.Library.Slots

/-!
# Requests served side by side

Every request has a thread that runs its code on a shared state. A step is the arrival of a
request, a call or an answer of one thread, or anything that the rules let others do.
-/

namespace Flexi.Library

variable {Op : Type} {Res : Op → Type} {Ctx ε α ρ σ : Type}

/-- A request and the thread that serves it. -/
structure Flight (Op : Type) (Res : Op → Type) (Ctx ε α ρ : Type) where
  request : ρ
  thread : Thread Op Res Ctx ε α

/-- One step of a state and the requests served on it. -/
inductive PoolStep (W : Rules Op Res Ctx ε σ) (code : ρ → Prog Op Res Ctx ε α) (s : σ)
    (fs : List (Flight Op Res Ctx ε α ρ)) : σ → List (Flight Op Res Ctx ε α ρ) → Prop
  | other (s' : σ) : W.interfere s s' → PoolStep W code s fs s' fs
  | arrive (r : ρ) (c : Ctx) : W.sees c → PoolStep W code s fs s (fs ++ [⟨r, (code r).advance c⟩])
  | execute (i : ℕ) (f : Flight Op Res Ctx ε α ρ) (perform : (o : Op) → σ → Except ε (Res o) × σ)
      (t : Thread Op Res Ctx ε α) (s' : σ) : fs[i]? = some f →
      (∀ o, W.exec o s (perform o s).2 (perform o s).1) →
      f.thread.execute perform s = some (t, s') → PoolStep W code s fs s' (fs.set i ⟨f.request, t⟩)
  | deliver (i : ℕ) (f : Flight Op Res Ctx ε α ρ) (c : Ctx) (t : Thread Op Res Ctx ε α) :
      fs[i]? = some f → W.sees c → f.thread.deliver c = some t →
      PoolStep W code s fs s (fs.set i ⟨f.request, t⟩)

/-- What the code ends in, for each request: from a state in `pre` it returns in `ok` or throws
in `error`, and all three stay whatever the others do. -/
structure Ends (W : Rules Op Res Ctx ε σ) (code : ρ → Prog Op Res Ctx ε α) where
  pre : σ → Prop
  ok : ρ → α → σ → Prop
  error : ρ → ε → σ → Prop
  pre_stable : W.Stable pre
  ok_stable : ∀ r a, W.Stable (ok r a)
  error_stable : ∀ r e, W.Stable (error r e)
  outline : ∀ r, Outline W pre (code r) (ok r) (error r)

namespace Ends

variable {W : Rules Op Res Ctx ε σ} {code : ρ → Prog Op Res Ctx ε α} {E : Ends W code}
  {f : Flight Op Res Ctx ε α ρ} {fs fs' : List (Flight Op Res Ctx ε α ρ)} {s s' : σ} {n : ℕ}

/-- The request's thread goes on as its outline has it. -/
def Safe (E : Ends W code) (f : Flight Op Res Ctx ε α ρ) (s : σ) : Prop :=
  f.thread.Safe W (E.ok f.request) (E.error f.request) s

theorem Safe.started {r : ρ} {c : Ctx} {p : Prog Op Res Ctx ε α} (hc : W.sees c)
    (hp : Outline W E.pre p (E.ok r) (E.error r)) (hs : E.pre s) : E.Safe ⟨r, p.advance c⟩ s :=
  Thread.Safe.advance hc (hp s hs)

theorem Safe.interfere (h : E.Safe f s) (hi : W.interfere s s') : E.Safe f s' := by
  by_cases ho : f.thread.op? = none
  · cases hthread : f.thread with
    | awaiting o k => simp [hthread, Thread.op?] at ho
    | answered o r k => simp [hthread, Thread.op?] at ho
    | finished result =>
      rw [Safe, hthread] at h ⊢
      cases result with
      | ok a => exact E.ok_stable f.request a s s' h hi
      | error e => exact E.error_stable f.request e s s' h hi
  · exact Thread.Safe.interfere h (.single hi) ho

theorem Safe.ended (h : E.Safe f s) :
    (∀ a, f.thread = .finished (.ok a) → E.ok f.request a s) ∧
      ∀ e, f.thread = .finished (.error e) → E.error f.request e s := by
  constructor <;> intro result hresult <;> rw [Safe, hresult] at h <;> exact h

/-- The requests from the `n`-th on are on their way to their ends. -/
structure Hold (E : Ends W code) (n : ℕ) (s : σ) (fs : List (Flight Op Res Ctx ε α ρ)) : Prop where
  pre : E.pre s
  safe : ∀ i f, n ≤ i → fs[i]? = some f → E.Safe f s
  length : n ≤ fs.length

theorem Hold.idle (hs : E.pre s) : E.Hold 0 s [] :=
  ⟨hs, fun _ _ _ hf => (by cases hf), le_refl 0⟩

theorem Hold.from_now (hs : E.pre s) : E.Hold fs.length s fs :=
  ⟨hs, fun _ _ hi hf => absurd (getElem?_lt hf) (Nat.not_lt.mpr hi), le_refl _⟩

/-- Where every request is on its way, a step is one that the rules let others do. -/
theorem Hold.interferes (h : E.Hold 0 s fs) (hrefl : ∀ s, W.interfere s s)
    (hown : ∀ s s', W.guarantee s s' → W.interfere s s') (hs : PoolStep W code s fs s' fs') :
    W.interfere s s' := by
  cases hs with
  | other _ hi => exact hi
  | arrive r c _ => exact hrefl s
  | execute i f perform t _ hf hexec hx =>
    exact hown _ _ (Thread.Safe.execute (fun o _ => hexec o) (h.safe i f (Nat.zero_le i) hf) hx).1
  | deliver i f c t hf _ hx => exact hrefl s

theorem Hold.step (h : E.Hold n s fs) (hi : W.interfere s s') (hs : PoolStep W code s fs s' fs') :
    E.Hold n s' fs' := by
  have hkept {i : ℕ} {f : Flight Op Res Ctx ε α ρ} (hle : n ≤ i) (hf : fs[i]? = some f) :
      E.Safe f s' :=
    (h.safe i f hle hf).interfere hi
  have hpre : E.pre s' := E.pre_stable _ _ h.pre hi
  cases hs with
  | other _ _ => exact ⟨hpre, fun i f hle hf => hkept hle hf, h.length⟩
  | arrive r c hc =>
    refine ⟨hpre, fun i f hle hf => ?_, ?_⟩
    · rcases getElem?_add hf with hf | ⟨-, rfl⟩
      · exact hkept hle hf
      · exact .started hc (E.outline r) hpre
    · rw [List.length_append]
      exact Nat.le_add_right_of_le h.length
  | execute i f perform t _ hf hexec hx =>
    refine ⟨hpre, fun j g hle hg => ?_, ?_⟩
    · rcases getElem?_put hg with ⟨rfl, rfl⟩ | ⟨-, hg⟩
      · exact (Thread.Safe.execute (fun o _ => hexec o) (h.safe j f hle hf) hx).2
      · exact hkept hle hg
    · rw [List.length_set]
      exact h.length
  | deliver i f c t hf hc hx =>
    refine ⟨hpre, fun j g hle hg => ?_, ?_⟩
    · rcases getElem?_put hg with ⟨rfl, rfl⟩ | ⟨-, hg⟩
      · exact Thread.Safe.deliver hc (h.safe j f hle hf) hx
      · exact hkept hle hg
    · rw [List.length_set]
      exact h.length

end Ends

/-! ### The calls of a request -/

/-- The protocol that only restricts which calls are made. -/
def calling (H : Op → Prop) : Protocol Op Res Ctx ε Unit where
  allows _ := H
  next _ _ _ := ()
  reads _ _ := ()
  ends _ := True

theorem Outline.of_keeps {W : Rules Op Res Ctx ε σ} {P : σ → Prop} {H : Op → Prop} {Q : α → Prop}
    {p : Prog Op Res Ctx ε α} (hp : p.Keeps (calling H) (fun a _ => Q a) ()) (hP : W.Stable P)
    (hexec : ∀ o s s' r, H o → W.exec o s s' r → P s → P s' ∧ W.guarantee s s') :
    Outline W P p (fun a s => Q a ∧ P s) fun _ _ => True := by
  induction p with
  | ret a => exact fun s hs => ⟨hp, hs⟩
  | throw e => exact fun _ _ => trivial
  | ask k ih => exact fun s hs c _ => ih c (hp c) s hs
  | call o k ih =>
    intro s hs s₁ h₁ s₂ r hx
    obtain ⟨hs₂, hg⟩ := hexec o s₁ s₂ r hp.1 hx (hP.rely hs h₁)
    exact ⟨hg, fun s₃ h₃ => ih r (hp.2 r) s₃ (hP.rely hs₂ h₃)⟩

/-- Every call that the request still makes is one of `H`. -/
def Flight.Calling (H : ρ → Op → Prop) (f : Flight Op Res Ctx ε α ρ) : Prop :=
  f.thread.KeepsTo (calling (H f.request)) (fun _ _ => True) ()

theorem Flight.Calling.allows {H : ρ → Op → Prop} {f : Flight Op Res Ctx ε α ρ} (h : f.Calling H)
    {o : Op} {k : Except ε (Res o) → Prog Op Res Ctx ε α} (hthread : f.thread = .awaiting o k) :
    H f.request o := by
  rw [Calling, hthread] at h
  exact Thread.KeepsTo.allows h

/-- The calls of all requests are those of the code. -/
theorem PoolStep.calling {W : Rules Op Res Ctx ε σ} {code : ρ → Prog Op Res Ctx ε α}
    {H : ρ → Op → Prop} {fs fs' : List (Flight Op Res Ctx ε α ρ)} {s s' : σ}
    (hcode : ∀ r, (code r).Keeps (calling (H r)) (fun _ _ => True) ())
    (hs : PoolStep W code s fs s' fs') (h : ∀ f ∈ fs, f.Calling H) : ∀ f ∈ fs', f.Calling H := by
  cases hs with
  | other _ _ => exact h
  | arrive r c _ =>
    intro f hf
    rcases List.mem_append.mp hf with hold | hnew
    · exact h f hold
    · cases List.mem_singleton.mp hnew
      exact Thread.KeepsTo.advance (hcode r) c fun _ => rfl
  | execute i f perform t _ hi _ hx =>
    intro g hg
    rcases List.mem_or_eq_of_mem_set hg with hold | rfl
    · exact h g hold
    · have hf := h f (List.mem_of_getElem? hi)
      cases hthread : f.thread with
      | awaiting o k =>
        rw [hthread] at hx
        rw [Flight.Calling, hthread] at hf
        cases hx
        exact hf.execute _
      | answered o r k =>
        rw [hthread] at hx
        cases hx
      | finished r =>
        rw [hthread] at hx
        cases hx
  | deliver i f c t hi _ hx =>
    intro g hg
    rcases List.mem_or_eq_of_mem_set hg with hold | rfl
    · exact h g hold
    · have hf := h f (List.mem_of_getElem? hi)
      cases hthread : f.thread with
      | answered o r k =>
        rw [hthread] at hx
        rw [Flight.Calling, hthread] at hf
        cases hx
        exact Thread.KeepsTo.advance hf c fun _ => rfl
      | awaiting o k =>
        rw [hthread] at hx
        cases hx
      | finished r =>
        rw [hthread] at hx
        cases hx

theorem PoolStep.kept {W : Rules Op Res Ctx ε σ} {code : ρ → Prog Op Res Ctx ε α}
    {fs fs' : List (Flight Op Res Ctx ε α ρ)} {s s' : σ} (hs : PoolStep W code s fs s' fs')
    {f : Flight Op Res Ctx ε α ρ} (hf : f ∈ fs) : ∃ g ∈ fs', g.request = f.request := by
  have hset {i : ℕ} {g : Flight Op Res Ctx ε α ρ} (t : Thread Op Res Ctx ε α) (hg : fs[i]? = some g) :
      ∃ g' ∈ fs.set i ⟨g.request, t⟩, g'.request = f.request := by
    obtain ⟨j, hj⟩ := List.mem_iff_getElem?.mp hf
    by_cases hij : i = j
    · subst hij
      cases hg.symm.trans hj
      exact ⟨_, List.mem_set (getElem?_lt hg) _, rfl⟩
    · exact ⟨f, List.mem_of_getElem? ((List.getElem?_set_ne hij).trans hj), rfl⟩
  cases hs with
  | other _ _ => exact ⟨f, hf, rfl⟩
  | arrive r c _ => exact ⟨f, List.mem_append_left _ hf, rfl⟩
  | execute i g perform t _ hi _ _ => exact hset t hi
  | deliver i g c t hi _ _ => exact hset t hi

end Flexi.Library
