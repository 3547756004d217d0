import Mathlib.Tactic
import Mathlib.Data.List.Sort

/-!
# Pages of an ordered list

A page is a slice of some ordered arrangement of the matching elements, and every page may
come from an arrangement of its own. The pages put together are an arrangement again
exactly when no tie is cut by a page boundary.
-/

namespace Flexi.Library

variable {α : Type}

/-- `L` has the elements of `M` in order. -/
def Arranges (r : α → α → Prop) (M L : List α) : Prop := L.Perm M ∧ L.Pairwise r

/-- Page `n`, from one. -/
def page (size n : ℕ) (L : List α) : List α := (L.drop ((n - 1) * size)).take size

def pageCount (size total : ℕ) : ℕ := (total + size - 1) / size

/-- However ties are broken, the same elements come before each page boundary. -/
def TiesTogether (r : α → α → Prop) (M : List α) (size : ℕ) : Prop :=
  ∀ L L', Arranges r M L → Arranges r M L' → ∀ n, (L.take (n * size)).Perm (L'.take (n * size))

/-- The pages one to `n` in a row. -/
def pages (answer : ℕ → List α) (n : ℕ) : List α := (List.range n).flatMap fun i => answer (i + 1)

section Pages

variable {r : α → α → Prop} {M L : List α} {size : ℕ} {answer : ℕ → List α}

theorem pages_succ (answer : ℕ → List α) (n : ℕ) :
    pages answer (n + 1) = pages answer n ++ answer (n + 1) := by
  simp [pages, List.range_succ]

theorem pages_congr {answer' : ℕ → List α} {n : ℕ} (h : ∀ k, 0 < k → k ≤ n → answer k = answer' k) :
    pages answer n = pages answer' n := by
  refine List.flatMap_congr fun i hi => h (i + 1) (by omega) ?_
  have hlt := List.mem_range.mp hi
  omega

theorem take_page (size n : ℕ) (L : List α) :
    L.take (n * size) ++ page size (n + 1) L = L.take ((n + 1) * size) := by
  have hsum : (n + 1) * size = n * size + size := Nat.succ_mul n size
  rw [page, Nat.add_sub_cancel, hsum, List.take_add]

theorem pages_of_one (size n : ℕ) (L : List α) :
    pages (fun k => page size k L) n = L.take (n * size) := by
  induction n with
  | zero => simp [pages]
  | succ n ih => rw [pages_succ, ih, take_page]

theorem le_pageCount_mul (hsize : 0 < size) (total : ℕ) : total ≤ pageCount size total * size := by
  have hdiv := Nat.div_add_mod (total + size - 1) size
  have hmod := Nat.mod_lt (total + size - 1) hsize
  have hcomm := Nat.mul_comm size ((total + size - 1) / size)
  unfold pageCount
  omega

theorem take_pageCount (hsize : 0 < size) (h : L.Perm M) :
    L.take (pageCount size M.length * size) = L := by
  have hle := le_pageCount_mul hsize M.length
  rw [← h.length_eq] at hle ⊢
  exact List.take_of_length_le hle

/-- Up to any page, the pages are what comes before the next boundary, in order. -/
theorem pages_arrange (hties : TiesTogether r M size) (hL : Arranges r M L) {n : ℕ}
    (hanswer : ∀ k, 0 < k → k ≤ n → ∃ L, Arranges r M L ∧ answer k = page size k L) :
    (pages answer n).Perm (L.take (n * size)) ∧ (pages answer n).Pairwise r := by
  induction n with
  | zero => simp [pages]
  | succ n ih =>
    obtain ⟨hperm, hsorted⟩ := ih fun k hpos hk => hanswer k hpos (by omega)
    obtain ⟨L', hL', heq⟩ := hanswer (n + 1) (by omega) le_rfl
    have hbefore : (pages answer n).Perm (L'.take (n * size)) := hperm.trans (hties L L' hL hL' n)
    have htake : (L'.take (n * size) ++ answer (n + 1)).Pairwise r := by
      rw [heq, take_page]
      exact hL'.2.sublist (List.take_sublist _ _)
    rw [List.pairwise_append] at htake
    obtain ⟨-, hpage, hcross⟩ := htake
    rw [pages_succ]
    constructor
    · have hpages : (pages answer n ++ answer (n + 1)).Perm (L'.take ((n + 1) * size)) := by
        rw [← take_page, heq]
        exact hbefore.append_right _
      exact hpages.trans (hties L' L hL' hL (n + 1))
    · rw [List.pairwise_append]
      exact ⟨hsorted, hpage, fun a ha b hb => hcross a (hbefore.mem_iff.mp ha) b hb⟩

/-- The pages have the elements of the list, whichever arrangement each of them comes from,
exactly when ties stay together. -/
theorem pages_perm_iff (hsize : 0 < size) (hL : Arranges r M L) :
    (∀ answer : ℕ → List α, (∀ k, 0 < k → k ≤ pageCount size M.length →
        ∃ L, Arranges r M L ∧ answer k = page size k L) →
      (pages answer (pageCount size M.length)).Perm M) ↔ TiesTogether r M size := by
  constructor
  · intro h L₁ L₂ h₁ h₂ n
    by_cases hn : pageCount size M.length ≤ n
    · have hle := (le_pageCount_mul hsize M.length).trans (Nat.mul_le_mul_right size hn)
      rw [List.take_of_length_le (h₁.1.length_eq ▸ hle),
        List.take_of_length_le (h₂.1.length_eq ▸ hle)]
      exact h₁.1.trans h₂.1.symm
    -- the pages up to `n` from the one arrangement, those after it from the other
    have hmixed (m : ℕ) (hm : n ≤ m) :
        pages (fun k => if k ≤ n then page size k L₁ else page size k L₂) m ++ L₂.drop (m * size) =
          L₁.take (n * size) ++ L₂.drop (n * size) := by
      induction m, hm using Nat.le_induction with
      | base =>
        have hbase : pages (fun k => if k ≤ n then page size k L₁ else page size k L₂) n =
            pages (fun k => page size k L₁) n :=
          pages_congr fun k _ hk => if_pos hk
        rw [hbase, pages_of_one]
      | succ m hm ih =>
        rw [← ih, pages_succ, List.append_assoc]
        rw [if_neg (by omega), page, Nat.add_sub_cancel, Nat.succ_mul, ← List.drop_drop,
          List.take_append_drop]
    have hpages := h (fun k => if k ≤ n then page size k L₁ else page size k L₂)
      fun k _ _ => ?_
    · have hall := hmixed (pageCount size M.length) (by omega)
      have hrest : L₂.drop (pageCount size M.length * size) = [] := by
        rw [List.drop_eq_nil_iff, h₂.1.length_eq]
        exact le_pageCount_mul hsize M.length
      rw [hrest, List.append_nil] at hall
      rw [hall] at hpages
      have hcancel : (L₁.take (n * size) ++ L₂.drop (n * size)).Perm
          (L₂.take (n * size) ++ L₂.drop (n * size)) := by
        rw [List.take_append_drop]
        exact hpages.trans h₂.1.symm
      exact (List.perm_append_right_iff _).mp hcancel
    · by_cases hk : k ≤ n
      · exact ⟨L₁, h₁, if_pos hk⟩
      · exact ⟨L₂, h₂, if_neg hk⟩
  · intro hties answer hanswer
    obtain ⟨hperm, -⟩ := pages_arrange hties hL hanswer
    rw [take_pageCount hsize hL.1] at hperm
    exact hperm.trans hL.1

theorem pages_arrange_iff (hsize : 0 < size) (hL : Arranges r M L) :
    (∀ answer : ℕ → List α, (∀ k, 0 < k → k ≤ pageCount size M.length →
        ∃ L, Arranges r M L ∧ answer k = page size k L) →
      Arranges r M (pages answer (pageCount size M.length))) ↔ TiesTogether r M size := by
  rw [← pages_perm_iff hsize hL]
  constructor
  · intro h answer hanswer
    exact (h answer hanswer).1
  · intro h answer hanswer
    have hties := (pages_perm_iff hsize hL).mp h
    exact ⟨h answer hanswer, (pages_arrange hties hL hanswer).2⟩

/-- Where elements that tie are one, there is one arrangement only. -/
theorem TiesTogether.of_antisymm (h : ∀ a ∈ M, ∀ b ∈ M, r a b → r b a → a = b) :
    TiesTogether r M size := by
  intro L L' hL hL' n
  have hperm : L.Perm L' := hL.1.trans hL'.1.symm
  have heq : L = L' := hperm.eq_of_pairwise (fun a b ha hb hab hba =>
    h a (hL.1.mem_iff.mp ha) b (hL'.1.mem_iff.mp hb) hab hba) hL.2 hL'.2
  rw [heq]

end Pages

/-! ### Where ties are -/

section Boundaries

/-- No page boundary lies among the elements that tie with one another. -/
def BoundariesBetween (r : α → α → Prop) [DecidableRel r] (M : List α) (size : ℕ) : Prop :=
  ∀ a ∈ M, ∀ n, n * size ≤ (M.filter fun b => ¬r a b).length ∨
    (M.filter fun b => r b a).length ≤ n * size

variable {r : α → α → Prop} [DecidableRel r] {M : List α} {size : ℕ} {a : α} {u v : List α}

theorem mem_take_split (hnodup : (u ++ a :: v).Nodup) (k : ℕ) :
    a ∈ (u ++ a :: v).take k ↔ u.length < k := by
  rw [List.nodup_middle, List.nodup_cons, List.mem_append, not_or] at hnodup
  constructor
  · intro hmem
    by_contra hle
    rw [List.take_append_of_le_length (Nat.le_of_not_lt hle)] at hmem
    exact hnodup.1.1 (List.mem_of_mem_take hmem)
  · intro hlt
    have hk : k = u.length + (k - u.length - 1 + 1) := by omega
    rw [hk, List.take_length_add_append, List.take_succ_cons]
    exact List.mem_append_right _ List.mem_cons_self

theorem count_split (hrefl : r a a) (h : Arranges r M (u ++ a :: v)) :
    (M.filter fun b => ¬r a b).length ≤ u.length ∧
      u.length < (M.filter fun b => r b a).length := by
  obtain ⟨hperm, hsorted⟩ := h
  rw [List.pairwise_append, List.pairwise_cons] at hsorted
  obtain ⟨-, ⟨hafter, -⟩, hbefore⟩ := hsorted
  rw [← (hperm.filter _).length_eq, ← (hperm.filter _).length_eq]
  constructor
  · have hv : v.filter (fun b => ¬r a b) = [] :=
      List.filter_eq_nil_iff.mpr fun b hb => by simpa using hafter b hb
    rw [List.filter_append, List.filter_cons_of_neg (by simpa using hrefl), hv, List.append_nil]
    exact List.length_filter_le _ _
  · have hu : u.filter (fun b => r b a) = u :=
      List.filter_eq_self.mpr fun b hb => by simpa using hbefore b hb a List.mem_cons_self
    rw [List.filter_append, List.filter_cons_of_pos (by simpa using hrefl), hu, List.length_append,
      List.length_cons]
    omega

theorem TiesTogether.of_boundaries (hM : M.Nodup) (hrefl : ∀ a, r a a)
    (h : BoundariesBetween r M size) : TiesTogether r M size := by
  -- whether `a` comes before the boundary does not depend on the arrangement
  have hmem : ∀ {L}, Arranges r M L → ∀ n a,
      a ∈ L.take (n * size) ↔ a ∈ M ∧ (M.filter fun b => r b a).length ≤ n * size := by
    intro L hL n a
    by_cases ha : a ∈ M
    · obtain ⟨u, v, rfl⟩ := List.append_of_mem (hL.1.mem_iff.mpr ha)
      obtain ⟨hbefore, hafter⟩ := count_split (hrefl a) hL
      rw [mem_take_split (hL.1.nodup_iff.mpr hM)]
      constructor
      · intro hlt
        refine ⟨ha, (h a ha n).resolve_left ?_⟩
        omega
      · rintro ⟨-, hle⟩
        omega
    · refine iff_of_false (fun hmem => ha ?_) fun hand => ha hand.1
      exact hL.1.mem_iff.mp (List.mem_of_mem_take hmem)
  intro L L' hL hL' n
  refine (List.perm_ext_iff_of_nodup ?_ ?_).mpr fun a => ?_
  · exact (hL.1.nodup_iff.mpr hM).sublist (List.take_sublist _ _)
  · exact (hL'.1.nodup_iff.mpr hM).sublist (List.take_sublist _ _)
  · rw [hmem hL, hmem hL']

theorem exists_arrangement (htrans : ∀ a b c, r a b → r b c → r a c)
    (htotal : ∀ a b, r a b ∨ r b a) (t : α → α → Prop) [DecidableRel t]
    (ht : ∀ a b c, t a b → t b c → t a c) (ht' : ∀ a b, t a b ∨ t b a) (M : List α) :
    ∃ L, Arranges r M L ∧ L.Pairwise fun b c => r c b → t b c := by
  let le (b c : α) : Bool := decide (r b c ∧ (r c b → t b c))
  have hle (b c : α) : le b c = true ↔ r b c ∧ (r c b → t b c) := decide_eq_true_iff
  have hsorted : (M.mergeSort le).Pairwise fun b c => le b c = true := by
    refine List.pairwise_mergeSort ?_ ?_ M
    · intro b c d hbc hcd
      rw [hle] at hbc hcd ⊢
      refine ⟨htrans b c d hbc.1 hcd.1, fun hdb => ?_⟩
      have hcb := htrans c d b hcd.1 hdb
      have hdc := htrans d b c hdb hbc.1
      exact ht b c d (hbc.2 hcb) (hcd.2 hdc)
    · intro b c
      rw [Bool.or_eq_true, hle, hle]
      rcases htotal b c with hbc | hcb
      · by_cases hcb : r c b
        · rcases ht' b c with hb | hc
          · exact .inl ⟨hbc, fun _ => hb⟩
          · exact .inr ⟨hcb, fun _ => hc⟩
        · exact .inl ⟨hbc, fun h => absurd h hcb⟩
      · by_cases hbc : r b c
        · rcases ht' b c with hb | hc
          · exact .inl ⟨hbc, fun _ => hb⟩
          · exact .inr ⟨hcb, fun _ => hc⟩
        · exact .inr ⟨hcb, fun h => absurd h hbc⟩
  refine ⟨M.mergeSort le, ⟨List.mergeSort_perm _ _, ?_⟩, ?_⟩
  · exact hsorted.imp fun h => ((hle _ _).mp h).1
  · exact hsorted.imp fun h => ((hle _ _).mp h).2

theorem TiesTogether.boundaries (hM : M.Nodup)
    (htrans : ∀ a b c, r a b → r b c → r a c) (htotal : ∀ a b, r a b ∨ r b a)
    (h : TiesTogether r M size) : BoundariesBetween r M size := by
  classical
  intro a ha n
  by_contra hno
  rw [not_or, Nat.not_le, Nat.not_le] at hno
  -- `a` first among its ties, and `a` last
  obtain ⟨L, hL, hfirst⟩ := exists_arrangement htrans htotal (fun b c => c = a → b = a)
    (fun b c d hbc hcd hd => hbc (hcd hd)) (fun b c => by tauto) M
  obtain ⟨L', hL', hlast⟩ := exists_arrangement htrans htotal (fun b c => b = a → c = a)
    (fun b c d hbc hcd hb => hcd (hbc hb)) (fun b c => by tauto) M
  obtain ⟨u, v, rfl⟩ := List.append_of_mem (hL.1.mem_iff.mpr ha)
  obtain ⟨u', v', rfl⟩ := List.append_of_mem (hL'.1.mem_iff.mpr ha)
  have hnodup := hL.1.nodup_iff.mpr hM
  have hnodup' := hL'.1.nodup_iff.mpr hM
  have hbefore : u.length ≤ (M.filter fun b => ¬r a b).length := by
    have hu : u.filter (fun b => ¬r a b) = u := by
      refine List.filter_eq_self.mpr fun b hb => ?_
      have hne : b ≠ a := fun heq =>
        (List.nodup_append.mp hnodup).2.2 b hb a List.mem_cons_self heq
      have hno : ¬r a b := fun hab =>
        hne ((List.pairwise_append.mp hfirst).2.2 b hb a List.mem_cons_self hab rfl)
      simpa using hno
    rw [← (hL.1.filter _).length_eq, List.filter_append, hu, List.length_append]
    omega
  have hafter : (M.filter fun b => r b a).length ≤ u'.length + 1 := by
    have hv : v'.filter (fun b => r b a) = [] := by
      refine List.filter_eq_nil_iff.mpr fun b hb => ?_
      have hne : b ≠ a := fun heq =>
        (List.nodup_cons.mp (List.nodup_append.mp hnodup').2.1).1 (heq ▸ hb)
      have hno : ¬r b a := fun hba => hne
        ((List.pairwise_cons.mp (List.pairwise_append.mp hlast).2.1).1 b hb hba rfl)
      simpa using hno
    have hlen := List.length_filter_le (fun b => decide (r b a)) (u' ++ [a])
    rw [← (hL'.1.filter _).length_eq, List.append_cons u' a v', List.filter_append, hv,
      List.append_nil]
    simpa using hlen
  have hin : a ∈ (u ++ a :: v).take (n * size) :=
    (mem_take_split hnodup _).mpr (by omega)
  have hout : a ∈ (u' ++ a :: v').take (n * size) := (h _ _ hL hL' n).mem_iff.mp hin
  have hlt := (mem_take_split hnodup' _).mp hout
  omega

/-- With distinct elements and a total order up to ties, where the boundaries lie decides. -/
theorem tiesTogether_iff (hM : M.Nodup) (htrans : ∀ a b c, r a b → r b c → r a c)
    (htotal : ∀ a b, r a b ∨ r b a) : TiesTogether r M size ↔ BoundariesBetween r M size :=
  ⟨TiesTogether.boundaries hM htrans htotal, .of_boundaries hM fun a => (htotal a a).elim id id⟩

end Boundaries

end Flexi.Library
