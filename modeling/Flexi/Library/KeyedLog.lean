import Mathlib.Tactic

/-!
# Logs with one entry per key

An entry takes the place of the earlier one with its key, or comes last. Such a list shows
each key where its history first has it, with what the history last says of it.
-/

namespace Flexi.Library

variable {α κ : Type} [DecidableEq κ] (key : α → κ)

/-- `x` in the place of the entry with its key, or at the end. -/
def enter : List α → α → List α
  | [], x => [x]
  | y :: ys, x => if key y = key x then x :: ys else y :: enter ys x

/-- `log` is what the history leaves. -/
structure IsLog (history log : List α) : Prop where
  nodup : (log.map key).Nodup
  order : log.map key = (history.map key).eraseDups
  latest : ∀ e ∈ log, ∃ before after, history = before ++ e :: after ∧ key e ∉ after.map key

variable {key} {history log : List α} {x : α}

theorem keys_enter : (enter key log x).map key =
    if key x ∈ log.map key then log.map key else log.map key ++ [key x] := by
  induction log with
  | nil => simp [enter]
  | cons y ys ih =>
    by_cases hy : key y = key x
    · simp [enter, hy]
    · have hy' : key x ≠ key y := fun h => hy h.symm
      rw [enter, if_neg hy, List.map_cons, ih]
      by_cases hmem : key x ∈ ys.map key
      · simp [hmem]
      · simp [hmem, hy']

/-- Among distinct keys the other entries stay, and no second one has the new key. -/
theorem mem_enter (hnodup : (log.map key).Nodup) {e : α} (he : e ∈ enter key log x) :
    e = x ∨ e ∈ log ∧ key e ≠ key x := by
  induction log with
  | nil => exact .inl (List.mem_singleton.mp he)
  | cons y ys ih =>
    rw [List.map_cons, List.nodup_cons] at hnodup
    by_cases hy : key y = key x
    · rw [enter, if_pos hy, List.mem_cons] at he
      rcases he with he | he
      · exact .inl he
      · refine .inr ⟨List.mem_cons_of_mem y he, fun heq => hnodup.1 ?_⟩
        rw [hy, ← heq]
        exact List.mem_map_of_mem he
    · rw [enter, if_neg hy, List.mem_cons] at he
      rcases he with rfl | he
      · exact .inr ⟨List.mem_cons_self, hy⟩
      · rcases ih hnodup.2 he with he | he
        · exact .inl he
        · exact .inr ⟨List.mem_cons_of_mem y he.1, he.2⟩

theorem eraseDups_append_singleton (ks : List κ) (k : κ) :
    (ks ++ [k]).eraseDups = if k ∈ ks then ks.eraseDups else ks.eraseDups ++ [k] := by
  rw [List.eraseDups_append]
  by_cases hk : k ∈ ks
  · simp [List.removeAll, hk]
  · simp [List.removeAll, hk, List.eraseDups_cons]

theorem eraseDups_eq_self {ks : List κ} (h : ks.Nodup) : ks.eraseDups = ks := by
  induction ks with
  | nil => rfl
  | cons k ks ih =>
    rw [List.nodup_cons] at h
    have hfilter : (ks.filter fun b => !b == k) = ks := by
      refine List.filter_eq_self.mpr fun b hb => ?_
      have hne : b ≠ k := fun heq => h.1 (heq ▸ hb)
      simpa using hne
    rw [List.eraseDups_cons, hfilter, ih h.2]

namespace IsLog

theorem of_nodup (h : (log.map key).Nodup) : IsLog key log log where
  nodup := h
  order := (eraseDups_eq_self h).symm
  latest e he := by
    obtain ⟨before, after, rfl⟩ := List.append_of_mem he
    rw [List.map_append, List.map_cons, List.nodup_middle, List.nodup_cons] at h
    exact ⟨before, after, rfl, fun hmem => h.1 (List.mem_append_right _ hmem)⟩

theorem enter (h : IsLog key history log) (x : α) :
    IsLog key (history ++ [x]) (Library.enter key log x) := by
  have hkeys : (Library.enter key log x).map key = _ := keys_enter
  constructor
  · rw [hkeys]
    split
    · exact h.nodup
    · rename_i hnew
      exact List.nodup_append.mpr ⟨h.nodup, List.nodup_singleton _, by
        intro k hk k' hk' heq
        rw [List.mem_singleton] at hk'
        exact hnew (hk' ▸ heq ▸ hk)⟩
  · rw [hkeys, List.map_append, List.map_singleton, eraseDups_append_singleton]
    simp only [h.order, List.mem_eraseDups]
  · intro e he
    rcases mem_enter h.nodup he with rfl | ⟨he, hne⟩
    · exact ⟨history, [], rfl, List.not_mem_nil⟩
    · obtain ⟨before, after, hhistory, hlast⟩ := h.latest e he
      refine ⟨before, after ++ [x], by rw [hhistory]; simp, fun hmem => ?_⟩
      rw [List.map_append, List.mem_append] at hmem
      rcases hmem with hmem | hmem
      · exact hlast hmem
      · exact hne (List.mem_singleton.mp hmem)

theorem foldl_enter (h : IsLog key history log) (xs : List α) :
    IsLog key (history ++ xs) (xs.foldl (Library.enter key) log) := by
  induction xs generalizing history log with
  | nil => simpa using h
  | cons x xs ih =>
    have hnext := ih (h.enter x)
    rwa [List.append_assoc, List.singleton_append] at hnext

end IsLog

end Flexi.Library
