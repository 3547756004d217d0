import Mathlib.Logic.Basic

/-!
# Runs of a labelled step function

A system is a partial step function `step : σ → ε → Option σ`. A run is
restricted by a condition `Ok` on the state before a step and the step's
label, so that a statement about the runs whose steps all meet a condition is
a statement about `Reach step Ok`.
-/

namespace Flexi.Library

variable {σ ε : Type*}

/-- The states reached from `s₀` by steps that all meet `Ok`. -/
inductive Reach (step : σ → ε → Option σ) (Ok : σ → ε → Prop) (s₀ : σ) : σ → Prop
  | init : Reach step Ok s₀ s₀
  | next {s s' : σ} {e : ε} : Reach step Ok s₀ s → Ok s e → step s e = some s' →
      Reach step Ok s₀ s'

namespace Reach

variable {step : σ → ε → Option σ} {Ok Ok' : σ → ε → Prop} {s₀ s s' : σ}

/-- The induction rule of runs: what holds at the start and is kept by every
admitted step from a reached state holds in every reached state. -/
theorem invariant {I : σ → Prop} (h : Reach step Ok s₀ s) (h₀ : I s₀)
    (keep : ∀ s s' e, Reach step Ok s₀ s → I s → Ok s e → step s e = some s' → I s') : I s := by
  induction h with
  | init => exact h₀
  | next hr hok hs ih => exact keep _ _ _ hr ih hok hs

theorem mono (h : Reach step Ok s₀ s) (hk : ∀ s e, Ok s e → Ok' s e) : Reach step Ok' s₀ s := by
  induction h with
  | init => exact .init
  | next _ hok hs ih => exact .next ih (hk _ _ hok) hs

theorem trans {s₁ : σ} (h : Reach step Ok s₀ s₁) (h' : Reach step Ok s₁ s) :
    Reach step Ok s₀ s := by
  induction h' with
  | init => exact h
  | next _ hok hs ih => exact .next ih hok hs

end Reach

/-- The state after a list of labels, if every step is enabled. -/
def runAll (step : σ → ε → Option σ) : σ → List ε → Option σ
  | s, [] => some s
  | s, e :: es => (step s e).bind fun s' => runAll step s' es

/-- Every label of a list meets `Ok` in the state it is taken from. -/
def AllOk (step : σ → ε → Option σ) (Ok : σ → ε → Prop) : σ → List ε → Prop
  | _, [] => True
  | s, e :: es => Ok s e ∧ ∀ s', step s e = some s' → AllOk step Ok s' es

theorem AllOk.of_labels {step : σ → ε → Option σ} {Ok : σ → ε → Prop} {es : List ε}
    (h : ∀ e ∈ es, ∀ s, Ok s e) (s : σ) : AllOk step Ok s es := by
  induction es generalizing s with
  | nil => trivial
  | cons e es ih =>
    exact ⟨h e List.mem_cons_self s, fun s' _ => ih (fun x hx => h x (List.mem_cons_of_mem e hx)) s'⟩

theorem AllOk.cons {step : σ → ε → Option σ} {Ok : σ → ε → Prop} {s s₁ : σ} {e : ε} {es : List ε}
    (hok : Ok s e) (hstep : step s e = some s₁) (htail : AllOk step Ok s₁ es) :
    AllOk step Ok s (e :: es) :=
  ⟨hok, fun _ h => Option.some.inj (hstep.symm.trans h) ▸ htail⟩

/-- Two conditions that agree where the first has kept an invariant admit the same runs. -/
theorem AllOk.congr {step : σ → ε → Option σ} {Ok Ok' : σ → ε → Prop} {I : σ → Prop}
    (hiff : ∀ s s' e, I s → step s e = some s' → (Ok s e ↔ Ok' s e))
    (keep : ∀ s s' e, I s → Ok' s e → step s e = some s' → I s') {s₀ s : σ} {es : List ε}
    (h₀ : I s₀) (hrun : runAll step s₀ es = some s) : AllOk step Ok s₀ es ↔ AllOk step Ok' s₀ es := by
  induction es generalizing s₀ with
  | nil => exact Iff.rfl
  | cons e es ih =>
    obtain ⟨s₁, h₁, h₂⟩ := Option.bind_eq_some_iff.mp hrun
    have htail (s' : σ) (hs' : step s₀ e = some s') (hok : Ok' s₀ e) :
        AllOk step Ok s' es ↔ AllOk step Ok' s' es := by
      obtain rfl : s₁ = s' := Option.some.inj (h₁.symm.trans hs')
      exact ih (keep s₀ _ e h₀ hok hs') h₂
    constructor
    · rintro ⟨hok, hnext⟩
      have hok' := (hiff s₀ s₁ e h₀ h₁).mp hok
      exact ⟨hok', fun s' hs' => (htail s' hs' hok').mp (hnext s' hs')⟩
    · rintro ⟨hok', hnext⟩
      exact ⟨(hiff s₀ s₁ e h₀ h₁).mpr hok', fun s' hs' => (htail s' hs' hok').mpr (hnext s' hs')⟩

theorem runAll_keeps {step : σ → ε → Option σ} {I : σ → Prop}
    (keep : ∀ s s' e, I s → step s e = some s' → I s') {s₀ s : σ} {es : List ε} (h₀ : I s₀)
    (hrun : runAll step s₀ es = some s) : I s := by
  induction es generalizing s₀ with
  | nil =>
    cases hrun
    exact h₀
  | cons e es ih =>
    obtain ⟨s₁, h₁, h₂⟩ := Option.bind_eq_some_iff.mp hrun
    exact ih (keep s₀ s₁ e h₀ h₁) h₂

theorem Reach.of_runAll {step : σ → ε → Option σ} {Ok : σ → ε → Prop} {s₀ s : σ} {es : List ε}
    (hok : AllOk step Ok s₀ es) (h : runAll step s₀ es = some s) : Reach step Ok s₀ s := by
  induction es generalizing s₀ with
  | nil =>
    cases h
    exact .init
  | cons e es ih =>
    obtain ⟨s₁, h₁, h₂⟩ := Option.bind_eq_some_iff.mp h
    exact .trans (.next .init hok.1 h₁) (ih (hok.2 s₁ h₁) h₂)

/-- `runAll` that also tests every label before its step. -/
def runChecked (step : σ → ε → Option σ) (ok : σ → ε → Bool) : σ → List ε → Option σ
  | s, [] => some s
  | s, e :: es => if ok s e then (step s e).bind fun s' => runChecked step ok s' es else none

theorem Reach.of_runChecked {step : σ → ε → Option σ} {Ok : σ → ε → Prop} {ok : σ → ε → Bool}
    {s₀ s : σ} {es : List ε} (hok : ∀ s e, ok s e = true → Ok s e)
    (h : runChecked step ok s₀ es = some s) : Reach step Ok s₀ s := by
  induction es generalizing s₀ with
  | nil =>
    cases h
    exact .init
  | cons e es ih =>
    rw [runChecked] at h
    split at h
    · rename_i hte
      obtain ⟨s₁, h₁, h₂⟩ := Option.bind_eq_some_iff.mp h
      exact .trans (.next .init (hok s₀ e hte) h₁) (ih h₂)
    · cases h

theorem runAll_of_runChecked {step : σ → ε → Option σ} {ok : σ → ε → Bool} {s₀ s : σ} {es : List ε}
    (h : runChecked step ok s₀ es = some s) : runAll step s₀ es = some s := by
  induction es generalizing s₀ with
  | nil => exact h
  | cons e es ih =>
    rw [runChecked] at h
    split at h
    · obtain ⟨s₁, h₁, h₂⟩ := Option.bind_eq_some_iff.mp h
      exact Option.bind_eq_some_iff.mpr ⟨s₁, h₁, ih h₂⟩
    · cases h

end Flexi.Library
