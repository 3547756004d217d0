import Mathlib.Tactic

/-!
# Fallible steps in sequence

How a chain, a map or a fold of `Except` computations that succeeded came about.
-/

namespace Flexi.Library

variable {ε α β σ : Type}

theorem except_bind_ok {x : Except ε α} {f : α → Except ε β} {b : β} :
    (x >>= f) = .ok b ↔ ∃ a, x = .ok a ∧ f a = .ok b := by
  cases x with
  | error e => simp [bind, Except.bind]
  | ok a => simp [bind, Except.bind]

theorem except_of_toOption {x : Except ε α} {a : α} (h : x.toOption = some a) : x = .ok a := by
  cases x with
  | error e => cases h
  | ok b => exact congrArg _ (Option.some.inj h)

theorem except_mapM_ok {f : α → Except ε β} {xs : List α} {ys : List β}
    (h : xs.mapM f = .ok ys) : List.Forall₂ (fun x y => f x = .ok y) xs ys := by
  induction xs generalizing ys with
  | nil =>
    cases h
    exact .nil
  | cons x xs ih =>
    rw [List.mapM_cons] at h
    obtain ⟨y, hy, h⟩ := except_bind_ok.mp h
    obtain ⟨rest, hrest, h⟩ := except_bind_ok.mp h
    cases h
    exact .cons hy (ih hrest)

theorem except_foldlM_invariant {f : σ → α → Except ε σ} {I : σ → Prop} {xs : List α} {s s' : σ}
    (keep : ∀ x ∈ xs, ∀ s s', I s → f s x = .ok s' → I s') (hs : I s)
    (h : xs.foldlM f s = .ok s') : I s' := by
  induction xs generalizing s with
  | nil =>
    cases h
    exact hs
  | cons x xs ih =>
    rw [List.foldlM_cons] at h
    obtain ⟨s₁, h₁, h⟩ := except_bind_ok.mp h
    have hs₁ := keep x List.mem_cons_self s s₁ hs h₁
    exact ih (fun y hy => keep y (List.mem_cons_of_mem x hy)) hs₁ h

/-- A fold whose steps succeed on a condition of the element alone. -/
theorem except_foldlM_ok {f : σ → α → Except ε σ} {g : σ → α → σ} {C : α → Prop}
    (hf : ∀ s x s', f s x = .ok s' ↔ C x ∧ s' = g s x) {xs : List α} {s s' : σ} :
    xs.foldlM f s = .ok s' ↔ (∀ x ∈ xs, C x) ∧ s' = xs.foldl g s := by
  induction xs generalizing s with
  | nil =>
    constructor
    · intro h
      cases h
      exact ⟨by simp, rfl⟩
    · rintro ⟨-, rfl⟩
      rfl
  | cons x xs ih =>
    rw [List.foldlM_cons, except_bind_ok]
    constructor
    · rintro ⟨s₁, h₁, h⟩
      obtain ⟨hx, rfl⟩ := (hf s x s₁).mp h₁
      obtain ⟨hxs, rfl⟩ := ih.mp h
      exact ⟨by simpa using ⟨hx, hxs⟩, rfl⟩
    · rintro ⟨hxs, rfl⟩
      have hx := hxs x List.mem_cons_self
      have hrest : ∀ y ∈ xs, C y := fun y hy => hxs y (List.mem_cons_of_mem x hy)
      exact ⟨g s x, (hf s x _).mpr ⟨hx, rfl⟩, ih.mpr ⟨hrest, rfl⟩⟩

/-! ### The errors of a chain -/

/-- Whatever `x` throws is in `P`. -/
def Throws (P : ε → Prop) (x : Except ε α) : Prop := ∀ e, x = .error e → P e

namespace Throws

variable {P : ε → Prop} {x : Except ε α} {f : α → Except ε β}

theorem pure (a : α) : Throws P (Pure.pure a : Except ε α) := by
  intro e h
  cases h

theorem throw {e : ε} (h : P e) : Throws P (MonadExcept.throw e : Except ε α) := by
  intro e' h'
  cases h'
  exact h

theorem bind (hx : Throws P x) (hf : ∀ a, Throws P (f a)) : Throws P (x >>= f) := by
  intro e h
  cases hxe : x with
  | error e' =>
    rw [hxe] at h
    cases h
    exact hx e hxe
  | ok a =>
    rw [hxe] at h
    exact hf a e h

theorem map {g : α → β} (hx : Throws P x) : Throws P (g <$> x) := by
  intro e h
  cases hxe : x with
  | error e' =>
    rw [hxe] at h
    cases h
    exact hx e hxe
  | ok a =>
    rw [hxe] at h
    cases h

theorem foldlM {f : σ → α → Except ε σ} (hf : ∀ s a, Throws P (f s a)) (xs : List α) (s : σ) :
    Throws P (xs.foldlM f s) := by
  induction xs generalizing s with
  | nil => exact pure s
  | cons a xs ih =>
    rw [List.foldlM_cons]
    exact bind (hf s a) ih

end Throws

end Flexi.Library
