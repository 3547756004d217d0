import Flexi.Library.Reach

/-!
# Runs that are watched

A history is noted along a run and decides nothing in it: every run has its
watched run, and every watched run is a run.
-/

namespace Flexi.Library

variable {σ ε γ : Type*}

/-- The system together with what `note` keeps of its steps. -/
def watch (step : σ → ε → Option σ) (note : σ → ε → γ → γ) (s : σ × γ) (e : ε) : Option (σ × γ) :=
  (step s.1 e).map fun s' => (s', note s.1 e s.2)

variable {step : σ → ε → Option σ} {note : σ → ε → γ → γ}

theorem watch_eq_some {s s' : σ × γ} {e : ε} :
    watch step note s e = some s' ↔ step s.1 e = some s'.1 ∧ s'.2 = note s.1 e s.2 := by
  rw [watch, Option.map_eq_some_iff]
  constructor
  · rintro ⟨t, ht, rfl⟩
    exact ⟨ht, rfl⟩
  · rintro ⟨ht, hnote⟩
    exact ⟨s'.1, ht, by rw [← hnote]⟩

end Flexi.Library
