import Mathlib.Data.List.Basic
import Mathlib.Tactic

/-!
# Rows under READ COMMITTED

A row is committed or not yet, and one transaction at a time may hold a version of it
that the others do not see; a version that is held is a lock on the row. A row's id is
its place in the table. An update works on the rows that its snapshot has matched, as
they are when it takes their locks.
-/

namespace Flexi.Library

variable {α : Type}

/-- `pending` is the version of the transaction that holds the row. A row that is neither
is the insert of a transaction that was rolled back. -/
structure Cell (α : Type) where
  committed : Option α
  pending : Option (ℕ × α) := none

namespace Cell

/-- The version that transaction `i` reads. -/
def see (i : ℕ) (c : Cell α) : Option α :=
  match c.pending with
  | some (j, v) => if j = i then some v else c.committed
  | none => c.committed

/-- Another transaction than `i` holds the row. -/
def lockedFor (i : ℕ) (c : Cell α) : Bool := c.pending.any fun held => held.1 ≠ i

def write (i : ℕ) (p : α → Bool) (f : α → α) (c : Cell α) : Cell α :=
  match c.see i with
  | some v => if p v then { c with pending := some (i, f v) } else c
  | none => c

def commit (i : ℕ) (c : Cell α) : Cell α :=
  match c.pending with
  | some (j, v) => if j = i then { committed := some v } else c
  | none => c

def rollback (i : ℕ) (c : Cell α) : Cell α :=
  match c.pending with
  | some (j, _) => if j = i then { committed := c.committed } else c
  | none => c

/-- The row stands in this version, for everyone or for the transaction that holds it. -/
def Holds (c : Cell α) (v : α) : Prop := c.committed = some v ∨ ∃ i, c.pending = some (i, v)

section
variable {i : ℕ} {c : Cell α}

theorem see_cases (i : ℕ) (c : Cell α) :
    (∃ v, c.pending = some (i, v) ∧ c.see i = some v) ∨
      (∀ v, c.pending ≠ some (i, v)) ∧ c.see i = c.committed := by
  obtain ⟨committed, pending⟩ := c
  cases pending with
  | none => exact .inr ⟨fun v h => (by cases h), rfl⟩
  | some held =>
    obtain ⟨j, v⟩ := held
    by_cases hj : j = i
    · exact .inl ⟨v, by rw [hj], by simp [see, hj]⟩
    · refine .inr ⟨fun w h => ?_, by simp [see, hj]⟩
      cases h
      exact hj rfl

theorem holds_of_see {v : α} (h : c.see i = some v) : c.Holds v := by
  rcases see_cases i c with ⟨w, hp, hsee⟩ | ⟨-, hsee⟩
  · cases hsee.symm.trans h
    exact .inr ⟨i, hp⟩
  · exact .inl (hsee.symm.trans h)

theorem write_cases (i : ℕ) (p : α → Bool) (f : α → α) (c : Cell α) :
    c.write i p f = c ∧ (∀ v, c.see i = some v → p v = false) ∨
      ∃ v, c.see i = some v ∧ p v = true ∧
        c.write i p f = { c with pending := some (i, f v) } := by
  unfold write
  cases hsee : c.see i with
  | none => exact .inl ⟨rfl, fun v h => (by cases h)⟩
  | some v =>
    cases hp : p v with
    | false =>
      refine .inl ⟨by simp [hp], fun w h => ?_⟩
      cases h
      exact hp
    | true => exact .inr ⟨v, rfl, hp, by simp [hp]⟩

theorem see_write {p : α → Bool} {f : α → α} :
    (c.write i p f).see i = (c.see i).map fun v => if p v then f v else v := by
  rcases write_cases i p f c with ⟨he, hno⟩ | ⟨v, hsee, hv, he⟩
  · rw [he]
    cases hsee : c.see i with
    | none => rfl
    | some v => simp [hno v hsee]
  · rw [he, hsee]
    simp [see, hv]

theorem commit_cases (i : ℕ) (c : Cell α) :
    (∃ v, c.pending = some (i, v) ∧ c.commit i = { committed := some v }) ∨
      (∀ v, c.pending ≠ some (i, v)) ∧ c.commit i = c := by
  obtain ⟨committed, pending⟩ := c
  cases pending with
  | none => exact .inr ⟨fun v h => (by cases h), rfl⟩
  | some held =>
    obtain ⟨j, v⟩ := held
    by_cases hj : j = i
    · exact .inl ⟨v, by rw [hj], by simp [commit, hj]⟩
    · refine .inr ⟨fun w h => ?_, by simp [commit, hj]⟩
      cases h
      exact hj rfl

theorem rollback_cases (i : ℕ) (c : Cell α) :
    (∃ v, c.pending = some (i, v) ∧ c.rollback i = { committed := c.committed }) ∨
      (∀ v, c.pending ≠ some (i, v)) ∧ c.rollback i = c := by
  obtain ⟨committed, pending⟩ := c
  cases pending with
  | none => exact .inr ⟨fun v h => (by cases h), rfl⟩
  | some held =>
    obtain ⟨j, v⟩ := held
    by_cases hj : j = i
    · exact .inl ⟨v, by rw [hj], by simp [rollback, hj]⟩
    · refine .inr ⟨fun w h => ?_, by simp [rollback, hj]⟩
      cases h
      exact hj rfl

theorem not_held {j : ℕ} {v : α} (h : c.lockedFor i = false) (hv : c.pending = some (j, v)) :
    j = i := by
  rw [lockedFor, hv] at h
  simpa using h

end

end Cell

abbrev Cells (α : Type) := List (Cell α)

namespace Cells

/-- The rows that transaction `i` reads and that match. -/
def select (i : ℕ) (p : ℕ → α → Bool) (cells : Cells α) : List (ℕ × α) :=
  cells.zipIdx.filterMap fun (c, k) => (c.see i).bind fun v => if p k v then some (k, v) else none

/-- The rows that an update of transaction `i` sets out to change. -/
def snapshot (i : ℕ) (p : ℕ → α → Bool) (cells : Cells α) : List ℕ :=
  (select i p cells).map (·.1)

/-- The update has to wait for a row. -/
def blocked (i : ℕ) (seen : List ℕ) (cells : Cells α) : Bool :=
  seen.any fun k => cells[k]?.any (·.lockedFor i)

/-- The rows of the snapshot that still match are changed. -/
def update (i : ℕ) (seen : List ℕ) (p : ℕ → α → Bool) (f : α → α) (cells : Cells α) : Cells α :=
  cells.mapIdx fun k c => if k ∈ seen then c.write i (p k) f else c

/-- How many rows that are. -/
def count (i : ℕ) (seen : List ℕ) (p : ℕ → α → Bool) (cells : Cells α) : ℕ :=
  ((select i p cells).filter fun row => row.1 ∈ seen).length

/-- The rows that transaction `i` reads and that match, without their places. -/
def visible (i : ℕ) (p : α → Bool) (cells : Cells α) : List α :=
  cells.filterMap fun c => (c.see i).filter p

/-- A statement on the matching rows has to wait for another transaction. -/
def waits (i : ℕ) (p : α → Bool) (cells : Cells α) : Bool :=
  cells.any fun c => c.lockedFor i && (c.see i).any p

/-- The matching rows are changed, none of which the statement has to wait for. -/
def writeAll (i : ℕ) (p : α → Bool) (f : α → α) (cells : Cells α) : Cells α :=
  cells.map (·.write i p f)

def insert (i : ℕ) (v : α) (cells : Cells α) : Cells α :=
  cells ++ [{ committed := none, pending := some (i, v) }]

/-- The rows that transaction `i` has inserted. -/
def inserted (i : ℕ) (cells : Cells α) : List ℕ :=
  cells.zipIdx.filterMap fun (c, k) =>
    if c.committed.isNone ∧ c.pending.any (·.1 = i) then some k else none

def commit (i : ℕ) (cells : Cells α) : Cells α := cells.map (·.commit i)

def rollback (i : ℕ) (cells : Cells α) : Cells α := cells.map (·.rollback i)

section
variable {i k : ℕ} {seen : List ℕ} {p : ℕ → α → Bool} {f : α → α} {cells : Cells α} {v : α}

theorem getElem?_update : (cells.update i seen p f)[k]? =
    cells[k]?.map fun c => if k ∈ seen then c.write i (p k) f else c :=
  List.getElem?_mapIdx

theorem getElem?_commit : (cells.commit i)[k]? = cells[k]?.map (·.commit i) := List.getElem?_map

theorem getElem?_rollback : (cells.rollback i)[k]? = cells[k]?.map (·.rollback i) :=
  List.getElem?_map

theorem mem_select : (k, v) ∈ cells.select i p ↔
    ∃ c, cells[k]? = some c ∧ c.see i = some v ∧ p k v = true := by
  simp only [select, List.mem_filterMap, Prod.exists, List.mem_zipIdx_iff_getElem?]
  constructor
  · rintro ⟨c, k', hc, hbind⟩
    obtain ⟨w, hw, hif⟩ := Option.bind_eq_some_iff.mp hbind
    split at hif
    · cases hif
      exact ⟨c, hc, hw, ‹_›⟩
    · cases hif
  · rintro ⟨c, hc, hsee, hp⟩
    exact ⟨c, k, hc, by simp [hsee, hp]⟩

theorem mem_visible {p : α → Bool} :
    v ∈ cells.visible i p ↔
      ∃ (k : ℕ) (c : Cell α), cells[k]? = some c ∧ c.see i = some v ∧ p v = true := by
  simp only [visible, List.mem_filterMap, Option.filter_eq_some_iff]
  constructor
  · rintro ⟨c, hc, hsee, hp⟩
    obtain ⟨k, hk⟩ := List.getElem?_of_mem hc
    exact ⟨k, c, hk, hsee, hp⟩
  · rintro ⟨k, c, hk, hsee, hp⟩
    exact ⟨c, List.mem_of_getElem? hk, hsee, hp⟩

/-- A statement that need not wait finds no matching row in other hands. -/
theorem not_waits {p : α → Bool} {c : Cell α} (h : cells.waits i p = false)
    (hc : cells[k]? = some c) (hsee : c.see i = some v) (hp : p v = true) :
    c.lockedFor i = false := by
  have hk := List.any_eq_false.mp h c (List.mem_of_getElem? hc)
  simpa [hsee, hp] using hk

theorem mem_snapshot : k ∈ cells.snapshot i p ↔
    ∃ c v, cells[k]? = some c ∧ c.see i = some v ∧ p k v = true := by
  simp only [snapshot, List.mem_map, Prod.exists]
  constructor
  · rintro ⟨k', v, hmem, rfl⟩
    obtain ⟨c, hc, hsee, hp⟩ := mem_select.mp hmem
    exact ⟨c, v, hc, hsee, hp⟩
  · rintro ⟨c, v, hc, hsee, hp⟩
    exact ⟨k, v, mem_select.mpr ⟨c, hc, hsee, hp⟩, rfl⟩

theorem mem_inserted : k ∈ cells.inserted i ↔
    ∃ c v, cells[k]? = some c ∧ c.committed = none ∧ c.pending = some (i, v) := by
  simp only [inserted, List.mem_filterMap, Prod.exists, List.mem_zipIdx_iff_getElem?]
  constructor
  · rintro ⟨c, k', hc, hif⟩
    split at hif
    · rename_i hcond
      cases hif
      obtain ⟨hnone, hheld⟩ := hcond
      obtain ⟨held, hp, hi⟩ := (Option.any_eq_true _ _).mp hheld
      obtain ⟨j, v⟩ := held
      cases of_decide_eq_true hi
      exact ⟨c, v, hc, Option.isNone_iff_eq_none.mp hnone, hp⟩
    · cases hif
  · rintro ⟨c, v, hc, hnone, hp⟩
    exact ⟨c, k, hc, by simp [hnone, hp]⟩

theorem not_blocked {c : Cell α} (h : cells.blocked i seen = false) (hk : k ∈ seen)
    (hc : cells[k]? = some c) : c.lockedFor i = false := by
  have hk' := List.any_eq_false.mp h k hk
  rw [hc] at hk'
  simpa using hk'

end

end Cells

end Flexi.Library
