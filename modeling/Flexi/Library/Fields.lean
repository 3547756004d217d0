import Mathlib.Data.List.Basic

/-!
# Splitting a text at runs of separators

A run of separators splits once, however long it is: a text that starts or ends with one has an
empty field there. Fields without separators, joined by any, are what the text is split into.
-/

namespace Flexi.Library

variable {α : Type*} {isSeparator : α → Bool}

def splitRuns (isSeparator : α → Bool) : List α → List (List α)
  | [] => [[]]
  | c :: cs =>
    if isSeparator c then
      -- a run goes on as long as there are separators
      if cs.head?.any isSeparator then splitRuns isSeparator cs
      else [] :: splitRuns isSeparator cs
    else (splitRuns isSeparator cs).modifyHead (c :: ·)

theorem splitRuns_field {field : List α} (hfield : ∀ c ∈ field, isSeparator c = false) :
    splitRuns isSeparator field = [field] := by
  induction field with
  | nil => rfl
  | cons c field ih =>
    rw [splitRuns, hfield c List.mem_cons_self, ih fun c hc => hfield c (List.mem_cons_of_mem _ hc)]
    rfl

theorem splitRuns_run {run rest : List α} (hrun : ∀ c ∈ run, isSeparator c = true) (hne : run ≠ [])
    (hrest : rest.head?.any isSeparator = false) :
    splitRuns isSeparator (run ++ rest) = [] :: splitRuns isSeparator rest := by
  induction run with
  | nil => exact absurd rfl hne
  | cons c run ih =>
    rw [List.cons_append, splitRuns, if_pos (hrun c List.mem_cons_self)]
    have hrun' : ∀ c ∈ run, isSeparator c = true := fun c hc => hrun c (List.mem_cons_of_mem _ hc)
    cases run with
    | nil =>
      rw [List.nil_append, if_neg (by rw [hrest]; exact Bool.false_ne_true)]
    | cons d run =>
      rw [if_pos]
      · exact ih hrun' (List.cons_ne_nil d run)
      · rw [List.cons_append, List.head?_cons, Option.any_some]
        exact hrun' d List.mem_cons_self

theorem splitRuns_append {field run rest : List α} (hfield : ∀ c ∈ field, isSeparator c = false)
    (hrun : ∀ c ∈ run, isSeparator c = true) (hne : run ≠ [])
    (hrest : rest.head?.any isSeparator = false) :
    splitRuns isSeparator (field ++ (run ++ rest)) = field :: splitRuns isSeparator rest := by
  induction field with
  | nil => exact splitRuns_run hrun hne hrest
  | cons c field ih =>
    rw [List.cons_append, splitRuns, hfield c List.mem_cons_self,
      ih fun c hc => hfield c (List.mem_cons_of_mem _ hc)]
    rfl

/-- Joined fields are split again. -/
theorem splitRuns_intercalate {run : List α} (hrun : ∀ c ∈ run, isSeparator c = true) (hne : run ≠ [])
    {fields : List (List α)} (hfields : ∀ field ∈ fields, ∀ c ∈ field, isSeparator c = false)
    (hnonempty : ∀ field ∈ fields, field ≠ []) (hsome : fields ≠ []) :
    splitRuns isSeparator (run.intercalate fields) = fields := by
  induction fields with
  | nil => exact absurd rfl hsome
  | cons field fields ih =>
    have hfield := hfields field List.mem_cons_self
    cases fields with
    | nil =>
      rw [List.intercalate_singleton]
      exact splitRuns_field hfield
    | cons next fields =>
      rw [List.intercalate_cons_cons, List.append_assoc, splitRuns_append hfield hrun hne, ih]
      · exact fun field hf => hfields field (List.mem_cons_of_mem _ hf)
      · exact fun field hf => hnonempty field (List.mem_cons_of_mem _ hf)
      · exact List.cons_ne_nil _ _
      · cases next with
        | nil => exact absurd rfl (hnonempty [] (List.mem_cons_of_mem _ List.mem_cons_self))
        | cons c next =>
          have hc := hfields (c :: next) (List.mem_cons_of_mem _ List.mem_cons_self) c
            List.mem_cons_self
          cases fields with
          | nil => simpa using hc
          | cons other fields => simpa [List.intercalate_cons_cons] using hc

theorem mem_of_mem_intercalate {sep : List α} {c : α} {fields : List (List α)}
    (h : c ∈ sep.intercalate fields) : c ∈ sep ∨ ∃ field ∈ fields, c ∈ field := by
  induction fields with
  | nil => cases h
  | cons field fields ih =>
    cases fields with
    | nil =>
      rw [List.intercalate_singleton] at h
      exact .inr ⟨field, List.mem_cons_self, h⟩
    | cons next fields =>
      rw [List.intercalate_cons_cons, List.append_assoc] at h
      rcases List.mem_append.mp h with h | h
      · exact .inr ⟨field, List.mem_cons_self, h⟩
      · rcases List.mem_append.mp h with h | h
        · exact .inl h
        · rcases ih h with hsep | ⟨other, hother, hc⟩
          · exact .inl hsep
          · exact .inr ⟨other, List.mem_cons_of_mem _ hother, hc⟩

/-! ### Values taken once -/

variable {β : Type*} [DecidableEq β]

/-- What a set iterates over, when the values are added one by one. -/
def addAll (seen : List β) (values : List β) : List β :=
  values.foldl (fun seen value => if seen.contains value then seen else seen ++ [value]) seen

theorem addAll_nodup {seen values : List β} (h : (seen ++ values).Nodup) :
    addAll seen values = seen ++ values := by
  induction values generalizing seen with
  | nil => exact (List.append_nil seen).symm
  | cons value values ih =>
    have hnew : seen.contains value = false := by
      rw [List.contains_eq_mem]
      refine decide_eq_false fun hmem => ?_
      exact (List.nodup_append.mp h).2.2 value hmem value List.mem_cons_self rfl
    rw [addAll, List.foldl_cons, if_neg (by rw [hnew]; exact Bool.false_ne_true)]
    change addAll (seen ++ [value]) values = _
    rw [ih (by rw [List.append_assoc]; exact h), List.append_assoc]
    rfl

end Flexi.Library
