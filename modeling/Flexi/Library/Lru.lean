import Mathlib.Data.Finset.Card
import Mathlib.Data.List.Nodup
import Mathlib.Tactic

/-!
# Least recently used entries

A map that keeps its entries in the order in which they were inserted, and what a
cache with a bound should hold after a sequence of uses. Taking an entry out and
putting it back at every use makes the order of the map the order of the last uses.
-/

namespace Flexi.Library

/-! ### Maps in insertion order -/

structure InsertionMap (κ ν : Type) where
  entries : List (κ × ν)
  nodup : (entries.map Prod.fst).Nodup

variable {κ ν : Type}

namespace InsertionMap

def empty : InsertionMap κ ν := ⟨[], List.nodup_nil⟩

def size (m : InsertionMap κ ν) : ℕ := m.entries.length

def firstKey? (m : InsertionMap κ ν) : Option κ := m.entries.head?.map Prod.fst

theorem nodup_keys_append {entries : List (κ × ν)} {key : κ} (value : ν)
    (hnodup : (entries.map Prod.fst).Nodup) (hkey : key ∉ entries.map Prod.fst) :
    ((entries ++ [(key, value)]).map Prod.fst).Nodup := by
  rw [List.map_append, List.nodup_append]
  refine ⟨hnodup, List.nodup_singleton _, ?_⟩
  intro other hother last hlast heq
  have hlast : last = key := by simpa using hlast
  rw [heq, hlast] at hother
  exact hkey hother

variable [DecidableEq κ]

def get? (m : InsertionMap κ ν) (key : κ) : Option ν :=
  (m.entries.find? fun entry => entry.1 == key).map Prod.snd

def delete (m : InsertionMap κ ν) (key : κ) : InsertionMap κ ν where
  entries := m.entries.filter fun entry => entry.1 != key
  nodup := m.nodup.sublist (List.filter_sublist.map Prod.fst)

theorem keys_replace (entries : List (κ × ν)) (key : κ) (value : ν) :
    (entries.map fun entry => if entry.1 = key then (key, value) else entry).map Prod.fst =
      entries.map Prod.fst := by
  rw [List.map_map]
  apply List.map_congr_left
  intro entry _
  by_cases hkey : entry.1 = key <;> simp [hkey]

/-- A key that is there keeps its place. -/
def set (m : InsertionMap κ ν) (key : κ) (value : ν) : InsertionMap κ ν :=
  if h : key ∈ m.entries.map Prod.fst then
    ⟨m.entries.map fun entry => if entry.1 = key then (key, value) else entry,
      (keys_replace m.entries key value).symm ▸ m.nodup⟩
  else ⟨m.entries ++ [(key, value)], nodup_keys_append value m.nodup h⟩

variable {m : InsertionMap κ ν} {key other : κ} {value : ν}

theorem get?_eq_some_iff : m.get? key = some value ↔ (key, value) ∈ m.entries := by
  simp only [get?, Option.map_eq_some_iff]
  constructor
  · rintro ⟨entry, hfind, rfl⟩
    have hkey := List.find?_some hfind
    rw [beq_iff_eq] at hkey
    rw [← hkey]
    exact List.mem_of_find?_eq_some hfind
  · intro hmem
    have hsome : (m.entries.find? fun entry => entry.1 == key).isSome = true :=
      List.find?_isSome.mpr ⟨(key, value), hmem, beq_self_eq_true key⟩
    obtain ⟨entry, hfind⟩ := Option.isSome_iff_exists.mp hsome
    have hkey := List.find?_some hfind
    rw [beq_iff_eq] at hkey
    have hsame : entry = (key, value) :=
      List.inj_on_of_nodup_map m.nodup (List.mem_of_find?_eq_some hfind) hmem hkey
    exact ⟨entry, hfind, by rw [hsame]⟩

theorem get?_eq_none_iff : m.get? key = none ↔ key ∉ m.entries.map Prod.fst := by
  rw [← not_iff_not, not_not, ← ne_eq, Option.ne_none_iff_exists', List.mem_map]
  constructor
  · rintro ⟨value, hvalue⟩
    exact ⟨(key, value), get?_eq_some_iff.mp hvalue, rfl⟩
  · rintro ⟨⟨_, value⟩, hmem, rfl⟩
    exact ⟨value, get?_eq_some_iff.mpr hmem⟩

theorem delete_entries : (m.delete key).entries = m.entries.filter fun entry => entry.1 != key :=
  rfl

theorem not_mem_delete : key ∉ (m.delete key).entries.map Prod.fst := by
  simp [delete]

theorem set_delete_entries (m : InsertionMap κ ν) (key : κ) (value : ν) :
    ((m.delete key).set key value).entries =
      m.entries.filter (fun entry => entry.1 != key) ++ [(key, value)] := by
  rw [set, dif_neg not_mem_delete]
  rfl

theorem delete_firstKey {first : κ} (h : m.firstKey? = some first) :
    (m.delete first).entries = m.entries.tail := by
  have hnodup := m.nodup
  unfold firstKey? at h
  rw [delete_entries]
  cases hentries : m.entries with
  | nil => simp [hentries] at h
  | cons entry rest =>
    rw [hentries] at h hnodup
    simp only [List.head?_cons, Option.map_some, Option.some.injEq] at h
    rw [List.map_cons, List.nodup_cons] at hnodup
    rw [← h, List.tail_cons, List.filter_cons_of_neg (by simp)]
    apply List.filter_eq_self.mpr
    intro later hlater
    have hne : later.1 ≠ entry.1 := fun heq => hnodup.1 (heq ▸ List.mem_map_of_mem hlater)
    simp [hne]

def keys (m : InsertionMap κ ν) : Finset κ := (m.entries.map Prod.fst).toFinset

theorem mem_keys : key ∈ m.keys ↔ key ∈ m.entries.map Prod.fst := List.mem_toFinset

theorem keys_delete : (m.delete key).keys = m.keys.erase key := by
  ext other
  simp only [Finset.mem_erase, mem_keys, delete_entries, List.mem_map, List.mem_filter, bne_iff_ne]
  constructor
  · rintro ⟨entry, ⟨hmem, hne⟩, rfl⟩
    exact ⟨hne, entry, hmem, rfl⟩
  · rintro ⟨hne, entry, hmem, rfl⟩
    exact ⟨entry, ⟨hmem, hne⟩, rfl⟩

theorem keys_set_delete (value : ν) : ((m.delete key).set key value).keys = insert key m.keys := by
  ext other
  by_cases hother : other = key
  · simp [mem_keys, set_delete_entries, hother]
  · have hdelete : other ∈ (m.delete key).keys ↔ other ∈ m.keys := by
      simp [keys_delete, hother]
    rw [Finset.mem_insert, ← hdelete]
    simp [mem_keys, set_delete_entries, delete_entries, hother]

end InsertionMap

/-! ### What has been used -/

inductive Use (κ ν : Type) where
  | read (key : κ)
  | write (key : κ) (value : ν)
  | drop (key : κ)

variable [DecidableEq κ]

/-- Reading and writing are uses of an entry, dropping it is not. -/
def Use.uses (key : κ) : Use κ ν → Bool
  | read other => other == key
  | write other _ => other == key
  | drop _ => false

/-- When a key was last read or written; `past` is what happened, newest first. -/
def lastUsed (key : κ) : List (Use κ ν) → ℕ
  | [] => 0
  | use :: past => if use.uses key then past.length + 1 else lastUsed key past

def lastWritten (key : κ) : List (Use κ ν) → Option ν
  | [] => none
  | .write other value :: past => if other = key then some value else lastWritten key past
  | _ :: past => lastWritten key past

/-- The `bound` keys of a set that were used last. -/
def mostRecent (bound : ℕ) (past : List (Use κ ν)) (keys : Finset κ) : Finset κ :=
  keys.filter fun key =>
    (keys.filter fun other => lastUsed key past < lastUsed other past).card < bound

/-- The keys that a cache with a bound holds. -/
def held (bound : ℕ) : List (Use κ ν) → Finset κ
  | [] => ∅
  | .read _ :: past => held bound past
  | .drop key :: past => (held bound past).erase key
  | .write key value :: past =>
    mostRecent bound (.write key value :: past) (insert key (held bound past))

section
variable {past : List (Use κ ν)} {use : Use κ ν} {key other : κ} {value : ν}

theorem lastUsed_le (past : List (Use κ ν)) (key : κ) : lastUsed key past ≤ past.length := by
  induction past with
  | nil => simp [lastUsed]
  | cons use past ih =>
    rw [lastUsed]
    split
    · simp
    · simp only [List.length_cons]
      omega

theorem lastUsed_of_uses (h : use.uses key = true) :
    lastUsed key (use :: past) = past.length + 1 := by
  simp [lastUsed, h]

theorem lastUsed_of_not_uses (h : use.uses key = false) :
    lastUsed key (use :: past) = lastUsed key past := by
  simp [lastUsed, h]

end

/-- In a list ordered by `f`, the elements with fewer than `n` later ones are the last
`n`. -/
theorem length_later_lt_iff {α : Type} {f : α → ℕ} {xs : List α} (n : ℕ)
    (hsorted : xs.Pairwise fun a b => f a < f b) {x : α} (hx : x ∈ xs) :
    (xs.filter fun y => f x < f y).length < n ↔ x ∈ xs.drop (xs.length - n) := by
  induction xs with
  | nil => simp at hx
  | cons a rest ih =>
    rw [List.pairwise_cons] at hsorted
    obtain ⟨ha, hrest⟩ := hsorted
    rw [List.length_cons]
    by_cases hn : rest.length + 1 ≤ n
    · have hle := List.length_filter_le (fun y => decide (f x < f y)) rest
      have hdrop : rest.length + 1 - n = 0 := by omega
      rw [hdrop, List.drop_zero]
      refine iff_of_true ?_ hx
      rcases List.mem_cons.mp hx with rfl | hmem
      · rw [List.filter_cons_of_neg (by simp)]
        omega
      · rw [List.filter_cons_of_neg (by have := ha x hmem; simp; omega)]
        omega
    · have hdrop : rest.length + 1 - n = (rest.length - n) + 1 := by omega
      rw [hdrop, List.drop_succ_cons]
      rcases List.mem_cons.mp hx with rfl | hmem
      · -- everything after the head is later
        have hall : rest.filter (fun y => decide (f x < f y)) = rest :=
          List.filter_eq_self.mpr fun y hy => by simpa using ha y hy
        rw [List.filter_cons_of_neg (by simp), hall]
        refine iff_of_false (by omega) ?_
        intro hdropped
        exact lt_irrefl _ (ha x (List.mem_of_mem_drop hdropped))
      · rw [List.filter_cons_of_neg (by have := ha x hmem; simp; omega)]
        exact ih hrest hmem

/-! ### Maps in the order of the last uses -/

/-- The entries are ordered by their last use, and each has the value last written. -/
structure Recent (past : List (Use κ ν)) (m : InsertionMap κ ν) : Prop where
  ordered : m.entries.Pairwise fun earlier later =>
    lastUsed earlier.1 past < lastUsed later.1 past
  current : ∀ entry ∈ m.entries, lastWritten entry.1 past = some entry.2

namespace Recent

variable {past : List (Use κ ν)} {m : InsertionMap κ ν} {use : Use κ ν} {key : κ} {value : ν}

theorem empty : Recent ([] : List (Use κ ν)) .empty where
  ordered := List.Pairwise.nil
  current entry hmem := by simp [InsertionMap.empty] at hmem

theorem sublist (h : Recent past m) {m' : InsertionMap κ ν}
    (hsub : m'.entries.Sublist m.entries) : Recent past m' where
  ordered := h.ordered.sublist hsub
  current entry hmem := h.current entry (hsub.subset hmem)

theorem unused (h : Recent past m) (huse : ∀ entry ∈ m.entries, use.uses entry.1 = false)
    (hwritten : ∀ entry ∈ m.entries,
      lastWritten entry.1 (use :: past) = lastWritten entry.1 past) :
    Recent (use :: past) m where
  ordered := h.ordered.imp_of_mem fun {earlier later} hearlier hlater hlt => by
    rw [lastUsed_of_not_uses (huse earlier hearlier), lastUsed_of_not_uses (huse later hlater)]
    exact hlt
  current entry hmem := by
    rw [hwritten entry hmem]
    exact h.current entry hmem

theorem touch (h : Recent past m) (huses : use.uses key = true)
    (hothers : ∀ other, other ≠ key → use.uses other = false ∧
      lastWritten other (use :: past) = lastWritten other past)
    (hvalue : lastWritten key (use :: past) = some value) :
    Recent (use :: past) ((m.delete key).set key value) := by
  have hrest : Recent (use :: past) (m.delete key) := by
    refine (h.sublist List.filter_sublist).unused ?_ ?_
    · intro entry hmem
      have hne : entry.1 ≠ key := by simpa using (List.mem_filter.mp hmem).2
      exact (hothers entry.1 hne).1
    · intro entry hmem
      have hne : entry.1 ≠ key := by simpa using (List.mem_filter.mp hmem).2
      exact (hothers entry.1 hne).2
  constructor
  · rw [InsertionMap.set_delete_entries, List.pairwise_append]
    refine ⟨hrest.ordered, List.pairwise_singleton _ _, ?_⟩
    intro earlier hearlier later hlater
    rw [List.mem_singleton] at hlater
    have hne : earlier.1 ≠ key := by simpa using (List.mem_filter.mp hearlier).2
    rw [hlater, lastUsed_of_uses huses, lastUsed_of_not_uses (hothers earlier.1 hne).1]
    have hle := lastUsed_le past earlier.1
    omega
  · intro entry hmem
    rw [InsertionMap.set_delete_entries, List.mem_append, List.mem_singleton] at hmem
    rcases hmem with hold | rfl
    · exact hrest.current entry hold
    · exact hvalue

/-- The last entries are those of the keys used last. -/
theorem mostRecent_keys (h : Recent past m) (bound : ℕ) :
    mostRecent bound past m.keys =
      ((m.entries.drop (m.size - bound)).map Prod.fst).toFinset := by
  have hsorted : (m.entries.map Prod.fst).Pairwise fun a b => lastUsed a past < lastUsed b past :=
    List.pairwise_map.mpr h.ordered
  have hcard : ∀ key, (m.keys.filter fun other => lastUsed key past < lastUsed other past).card =
      ((m.entries.map Prod.fst).filter
        fun other => lastUsed key past < lastUsed other past).length := by
    intro key
    rw [← List.toFinset_card_of_nodup (m.nodup.sublist List.filter_sublist)]
    congr 1
    ext other
    simp [InsertionMap.keys]
  ext key
  rw [mostRecent, Finset.mem_filter, InsertionMap.mem_keys, hcard, List.mem_toFinset,
    List.map_drop]
  constructor
  · rintro ⟨hmem, hlt⟩
    have hdrop := (length_later_lt_iff bound hsorted hmem).mp hlt
    rwa [List.length_map] at hdrop
  · intro hdrop
    have hmem := List.mem_of_mem_drop hdrop
    refine ⟨hmem, (length_later_lt_iff bound hsorted hmem).mpr ?_⟩
    rwa [List.length_map]

end Recent

end Flexi.Library
