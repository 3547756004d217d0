import Mathlib.Data.List.Nodup
import Mathlib.Data.List.Perm.Subperm
import Mathlib.Order.Basic

/-!
# Tables as lists of rows

The statements of a relational client on one table: the rows that meet a
condition are changed, counted or looked up.
-/

namespace Flexi.Library

variable {α β : Type}

/-- `UPDATE ... WHERE p`. -/
def updateMany (p : α → Bool) (f : α → α) (rows : List α) : List α :=
  rows.map fun row => if p row then f row else row

def countWhere (p : α → Bool) (rows : List α) : ℕ := (rows.filter p).length

/-- Any row that meets the condition: without an order the database may return each
of them, and `pick` stands for its choice. -/
def findAny (pick : ℕ) (p : α → Bool) (rows : List α) : Option α :=
  (rows.filter p)[pick % (rows.filter p).length]?

section
variable {p : α → Bool} {f : α → α} {rows : List α} {row : α}

theorem mem_updateMany : row ∈ updateMany p f rows ↔
    ∃ old ∈ rows, row = if p old then f old else old := by
  simp only [updateMany, List.mem_map]
  constructor
  · rintro ⟨old, hmem, rfl⟩
    exact ⟨old, hmem, rfl⟩
  · rintro ⟨old, hmem, rfl⟩
    exact ⟨old, hmem, rfl⟩

theorem map_updateMany {g : α → β} (h : ∀ row, g (f row) = g row) :
    (updateMany p f rows).map g = rows.map g := by
  rw [updateMany, List.map_map]
  apply List.map_congr_left
  intro row _
  simp only [Function.comp_apply]
  split
  · exact h row
  · rfl

theorem find?_updateMany (rows : List α) {q : α → Bool} (h : ∀ row, q (f row) = q row) :
    (updateMany p f rows).find? q = (rows.find? q).map fun row => if p row then f row else row := by
  have hsame : (q ∘ fun row => if p row then f row else row) = q := by
    funext row
    simp only [Function.comp_apply]
    split
    · exact h row
    · rfl
  rw [updateMany, List.find?_map, hsame]

theorem updateMany_of_none (h : ∀ row ∈ rows, p row = false) : updateMany p f rows = rows := by
  rw [updateMany]
  conv_rhs => rw [← List.map_id rows]
  apply List.map_congr_left
  intro row hrow
  simp [h row hrow]

theorem countWhere_eq_zero : countWhere p rows = 0 ↔ ∀ row ∈ rows, p row = false := by
  simp [countWhere, List.filter_eq_nil_iff]

theorem countWhere_ne_zero : countWhere p rows ≠ 0 ↔ ∃ row ∈ rows, p row = true := by
  rw [ne_eq, countWhere_eq_zero]
  simp

theorem findAny_some {pick : ℕ} (h : findAny pick p rows = some row) :
    row ∈ rows ∧ p row = true :=
  List.mem_filter.mp (List.mem_of_getElem? h)

theorem findAny_eq_none {pick : ℕ} :
    findAny pick p rows = none ↔ ∀ row ∈ rows, p row = false := by
  constructor
  · intro h row hrow
    by_contra hp
    have hmem : row ∈ rows.filter p := List.mem_filter.mpr ⟨hrow, by simpa using hp⟩
    have hlen : pick % (rows.filter p).length < (rows.filter p).length :=
      Nat.mod_lt _ (List.length_pos_of_mem hmem)
    rw [findAny, List.getElem?_eq_none_iff] at h
    omega
  · intro h
    rw [findAny, List.filter_eq_nil_iff.mpr (by simpa using h)]
    rfl

theorem countWhere_add {q r : α → Bool} (hor : ∀ row ∈ rows, r row = (p row || q row))
    (hexcl : ∀ row ∈ rows, p row = true → q row = false) :
    countWhere p rows + countWhere q rows = countWhere r rows := by
  induction rows with
  | nil => rfl
  | cons row rows ih =>
    have ih := ih (fun x hx => hor x (List.mem_cons_of_mem row hx))
      fun x hx => hexcl x (List.mem_cons_of_mem row hx)
    have hrow := hor row List.mem_cons_self
    have hexcl := hexcl row List.mem_cons_self
    unfold countWhere at ih ⊢
    cases hp : p row with
    | true =>
      have hq := hexcl hp
      rw [hp, hq] at hrow
      simp [hp, hq, hrow]
      omega
    | false =>
      cases hq : q row with
      | true =>
        rw [hp, hq] at hrow
        simp [hp, hq, hrow]
        omega
      | false =>
        rw [hp, hq] at hrow
        simp [hp, hq, hrow]
        omega

theorem exists_findAny (hrow : row ∈ rows) (hp : p row = true) :
    ∃ pick, findAny pick p rows = some row := by
  obtain ⟨i, hi, hget⟩ := List.getElem_of_mem (List.mem_filter.mpr ⟨hrow, hp⟩)
  refine ⟨i, ?_⟩
  rw [findAny, Nat.mod_eq_of_lt hi, List.getElem?_eq_getElem hi, hget]

end

/-! ### The best of the rows -/

theorem foldl_mem {f : Option α → α → Option α} {rows : List α} {start : Option α} {best : α}
    (h : rows.foldl f start = some best) (hf : ∀ b a, f b a = some a ∨ f b a = b) :
    best ∈ rows ∨ start = some best := by
  induction rows generalizing start with
  | nil => exact .inr h
  | cons row rows ih =>
    rw [List.foldl_cons] at h
    rcases ih h with hmem | hbest
    · exact .inl (List.mem_cons_of_mem row hmem)
    · rcases hf start row with hrow | hstart
      · rw [hrow] at hbest
        cases hbest
        exact .inl List.mem_cons_self
      · rw [hstart] at hbest
        exact .inr hbest

theorem foldl_bounds [Preorder β] (key : α → β) {f : Option α → α → Option α}
    {rows : List α} {start : Option α} {a : α} (ha : a ∈ rows)
    (hf : ∀ b a, ∃ c, f b a = some c ∧ key a ≤ key c ∧ ∀ b', b = some b' → key b' ≤ key c) :
    ∃ best, rows.foldl f start = some best ∧ key a ≤ key best := by
  have above (rows : List α) (b : α) :
      ∃ best, rows.foldl f (some b) = some best ∧ key b ≤ key best := by
    induction rows generalizing b with
    | nil => exact ⟨b, rfl, le_rfl⟩
    | cons row rows ih =>
      obtain ⟨c, hc, -, hle⟩ := hf (some b) row
      obtain ⟨best, hbest, hle'⟩ := ih c
      rw [List.foldl_cons, hc]
      exact ⟨best, hbest, (hle b rfl).trans hle'⟩
  induction rows generalizing start with
  | nil => cases ha
  | cons row rows ih =>
    rw [List.foldl_cons]
    rcases List.mem_cons.mp ha with rfl | ha
    · obtain ⟨c, hc, hle, -⟩ := hf start a
      obtain ⟨best, hbest, hle'⟩ := above rows c
      rw [hc]
      exact ⟨best, hbest, hle.trans hle'⟩
    · exact ih ha

/-! ### Ids -/

/-- Rows whose ids are given out once, all below `next`. -/
structure Numbered (id : α → ℕ) (rows : List α) (next : ℕ) : Prop where
  given : ∀ row ∈ rows, id row < next
  unique : (rows.map id).Nodup

namespace Numbered

variable {id : α → ℕ} {rows rows' : List α} {row other : α} {n m : ℕ}

theorem inj (h : Numbered id rows n) (hrow : row ∈ rows) (hother : other ∈ rows)
    (heq : id row = id other) : row = other :=
  List.inj_on_of_nodup_map h.unique hrow hother heq

theorem of_ids (h : Numbered id rows n) (hids : rows'.map id = rows.map id) (hle : n ≤ m) :
    Numbered id rows' m where
  given row hrow := by
    have hmem : id row ∈ rows.map id := hids ▸ List.mem_map_of_mem hrow
    obtain ⟨old, hold, hid⟩ := List.mem_map.mp hmem
    have hlt := h.given old hold
    omega
  unique := by rw [hids]; exact h.unique

theorem updateMany {p : α → Bool} {f : α → α} (h : Numbered id rows n) (hf : ∀ row, id (f row) = id row)
    (hle : n ≤ m) : Numbered id (Library.updateMany p f rows) m :=
  h.of_ids (map_updateMany hf) hle

theorem filter (h : Numbered id rows n) (p : α → Bool) (hle : n ≤ m) :
    Numbered id (rows.filter p) m where
  given row hrow := by
    have hlt := h.given row (List.mem_filter.mp hrow).1
    omega
  unique := h.unique.sublist (List.Sublist.map id List.filter_sublist)

/-- A new row takes an id that was not given out before. -/
theorem append (h : Numbered id rows n) (hge : n ≤ id row) (hlt : id row < m) :
    Numbered id (rows ++ [row]) m where
  given other hother := by
    rcases List.mem_append.mp hother with hold | hnew
    · have hold := h.given other hold
      omega
    · cases List.mem_singleton.mp hnew
      exact hlt
  unique := by
    rw [List.map_append, List.nodup_append]
    refine ⟨h.unique, List.nodup_singleton _, fun a ha b hb heq => ?_⟩
    obtain ⟨old, hold, rfl⟩ := List.mem_map.mp ha
    cases List.mem_singleton.mp hb
    have hold := h.given old hold
    omega

/-- Rows that are counted come from earlier ones that were, or are among the `extra`. -/
theorem countWhere_le {p q : α → Bool} {extra : List ℕ} (h : Numbered id rows' n)
    (hback : ∀ row ∈ rows', p row = true → (∃ old ∈ rows, q old = true ∧ id old = id row) ∨ id row ∈ extra) :
    countWhere p rows' ≤ countWhere q rows + extra.length := by
  have hnodup : ((rows'.filter p).map id).Nodup :=
    h.unique.sublist (List.Sublist.map id List.filter_sublist)
  have hsubset : (rows'.filter p).map id ⊆ (rows.filter q).map id ++ extra := by
    intro a ha
    obtain ⟨row, hrow, rfl⟩ := List.mem_map.mp ha
    obtain ⟨hmem, hp⟩ := List.mem_filter.mp hrow
    rcases hback row hmem hp with ⟨old, hold, hq, hid⟩ | hextra
    · rw [← hid]
      exact List.mem_append_left _ (List.mem_map_of_mem (List.mem_filter.mpr ⟨hold, hq⟩))
    · exact List.mem_append_right _ hextra
  have hlength := (List.subperm_of_subset hnodup hsubset).length_le
  rw [List.length_append, List.length_map, List.length_map] at hlength
  exact hlength

end Numbered

end Flexi.Library
