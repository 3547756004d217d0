import Mathlib.Algebra.BigOperators.Group.List.Basic
import Mathlib.Tactic

/-!
# Numbered entries

A list whose entries are known by their numbers: a new one is added at the end, an old one is
overwritten in its place.
-/

namespace Flexi.Library

variable {α : Type*} {l : List α} {a b : α} {i j : ℕ}

theorem getElem?_add (h : (l ++ [a])[i]? = some b) : l[i]? = some b ∨ i = l.length ∧ b = a := by
  rcases Nat.lt_trichotomy i l.length with hlt | heq | hgt
  · rw [List.getElem?_append_left hlt] at h
    exact .inl h
  · subst heq
    rw [List.getElem?_concat_length] at h
    exact .inr ⟨rfl, (Option.some.inj h).symm⟩
  · rw [List.getElem?_eq_none (by rw [List.length_append, List.length_singleton]; omega)] at h
    cases h

theorem getElem?_put (h : (l.set i a)[j]? = some b) :
    j = i ∧ b = a ∨ j ≠ i ∧ l[j]? = some b := by
  by_cases hj : j = i
  · subst hj
    have hlt : j < l.length := by
      have hlt := (List.getElem?_eq_some_iff.mp h).1
      rwa [List.length_set] at hlt
    rw [List.getElem?_set_self hlt] at h
    exact .inl ⟨rfl, (Option.some.inj h).symm⟩
  · rw [List.getElem?_set_ne fun h => hj h.symm] at h
    exact .inr ⟨hj, h⟩

theorem getElem?_lt (h : l[i]? = some a) : i < l.length := (List.getElem?_eq_some_iff.mp h).1

theorem getElem?_kept (h : l[i]? = some a) (b : α) : (l ++ [b])[i]? = some a := by
  rw [List.getElem?_append_left (getElem?_lt h), h]

/-! ### Weights -/

variable (w : α → ℕ)

theorem weight_add (l : List α) (a : α) :
    ((l ++ [a]).map w).sum = (l.map w).sum + w a := by
  rw [List.map_append, List.sum_append, List.map_singleton, List.sum_singleton]

theorem weight_put (h : l[i]? = some a) (b : α) :
    ((l.set i b).map w).sum + w a = (l.map w).sum + w b := by
  induction l generalizing i with
  | nil => cases h
  | cons x xs ih =>
    cases i with
    | zero =>
      cases h
      simp only [List.set_cons_zero, List.map_cons, List.sum_cons]
      omega
    | succ i =>
      have hi := ih (i := i) h
      simp only [List.set_cons_succ, List.map_cons, List.sum_cons]
      omega

end Flexi.Library
