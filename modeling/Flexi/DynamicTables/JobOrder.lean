import Flexi.DynamicTables.Registry

/-!
# Jobs taken one after the other

In a sequential run only the oldest unfinished job has ever been attempted
among the unfinished ones, and a table's field edits stand behind the job that
creates it.
-/

namespace Flexi.DynamicTables
open Flexi.Library

/-- What an older job `a` and a younger job `b` have to do with each other. -/
structure Older (a b : Job) : Prop where
  waits : a.unfinished = true → b.attemptsMade = 0
  created_first : ∀ d, b.data = .createTable d → a.data.tableId ≠ d.tableId

def InOrder (w : World) : Prop := w.jobs.Pairwise Older

variable {env : Env} {w w' : World} {e : Event} {job : Job}

theorem nextJob_split (h : w.nextJob = some job) :
    job.unfinished = true ∧ ∃ before after, w.jobs = before ++ job :: after ∧
      ∀ k ∈ before, k.unfinished = false := by
  obtain ⟨hu, before, after, hsplit, hb⟩ := List.find?_eq_some_iff_append.mp h
  exact ⟨hu, before, after, hsplit, fun k hk => by simpa using hb k hk⟩

/-- Whatever waits behind the next job has not been tried. -/
theorem InOrder.untried (ho : InOrder w) (h : w.nextJob = some job) {k : Job} (hk : k ∈ w.jobs)
    (hu : k.unfinished = true) (hne : k ≠ job) : k.attemptsMade = 0 := by
  obtain ⟨hjob, before, after, hsplit, hb⟩ := nextJob_split h
  rw [hsplit, List.mem_append, List.mem_cons] at hk
  rcases hk with hk | rfl | hk
  · rw [hb k hk] at hu
    cases hu
  · exact absurd rfl hne
  · have hp := ho
    rw [InOrder, hsplit, List.pairwise_append, List.pairwise_cons] at hp
    exact (hp.2.1.1 k hk).waits hjob

theorem InOrder.edits_untried (ho : InOrder w) (h : w.nextJob = some job)
    {d : CreateTableJobData} (hd : job.data = .createTable d) {k : Job} (hk : k ∈ w.jobs)
    {d' : FieldEditJobData} (hd' : k.data = .fieldEdit d') (he : d'.tableId = d.tableId) :
    k.attemptsMade = 0 := by
  obtain ⟨hjob, before, after, hsplit, hb⟩ := nextJob_split h
  have hp := ho
  rw [InOrder, hsplit, List.pairwise_append, List.pairwise_cons] at hp
  rw [hsplit, List.mem_append, List.mem_cons] at hk
  rcases hk with hk | rfl | hk
  · have hold := (hp.2.2 k hk job List.mem_cons_self).created_first d hd
    rw [hd'] at hold
    exact absurd he hold
  · rw [hd] at hd'
    cases hd'
  · exact (hp.2.1.1 k hk).waits hjob

theorem InOrder.enqueue (ho : InOrder w) {data : DdlJobData} {n : ℕ}
    (hfresh : ∀ d, data = .createTable d → ∀ k ∈ w.jobs, k.data.tableId ≠ d.tableId) :
    InOrder (w.enqueue data n) := by
  show (w.jobs ++ [_]).Pairwise Older
  rw [List.pairwise_append]
  refine ⟨ho, List.pairwise_singleton _ _, fun a ha b hb => ?_⟩
  rw [List.mem_singleton] at hb
  subst hb
  exact ⟨fun _ => rfl, fun d hd => hfresh d hd a ha⟩

theorem InOrder.setJob (hr : Registered w) (ho : InOrder w) (h : w.nextJob = some job) {job' : Job}
    {db' : TenantSchema} (ha : Attempted env job w.db job' db') : InOrder (w.setJob job' db') := by
  obtain ⟨hjob, before, after, hsplit, hb⟩ := nextJob_split h
  have hmem : job ∈ w.jobs := by
    rw [hsplit]
    simp
  have hp := ho
  rw [InOrder, hsplit, List.pairwise_append, List.pairwise_cons] at hp
  obtain ⟨hbefore, ⟨hnext, hafter⟩, hcross⟩ := hp
  have hids := hr.id_nodup
  rw [hsplit, List.map_append, List.map_cons, List.nodup_append, List.nodup_cons] at hids
  have hkeep : ∀ k ∈ before ++ after, (if k.id == job'.id then job' else k) = k := by
    intro k hk
    have hne : k.id ≠ job'.id := by
      rw [ha.id]
      rcases List.mem_append.mp hk with hk | hk
      · exact hids.2.2 k.id (List.mem_map.mpr ⟨k, hk, rfl⟩) job.id List.mem_cons_self
      · intro he
        exact hids.2.1.1 (he ▸ List.mem_map.mpr ⟨k, hk, rfl⟩)
    simp [hne]
  have hjobs : (w.setJob job' db').jobs = before ++ job' :: after := by
    simp only [World.setJob, hsplit, List.map_append, List.map_cons]
    rw [List.map_congr_left (g := id) fun k hk => hkeep k (List.mem_append_left _ hk),
      List.map_congr_left (g := id) fun k hk => hkeep k (List.mem_append_right _ hk)]
    simp [ha.id]
  rw [InOrder, hjobs, List.pairwise_append, List.pairwise_cons]
  refine ⟨hbefore, ⟨fun b hb' => ⟨fun _ => (hnext b hb').waits hjob, fun d hd => ?_⟩, hafter⟩, ?_⟩
  · rw [ha.data]
    exact (hnext b hb').created_first d hd
  · intro a ha' b hb'
    rcases List.mem_cons.mp hb' with rfl | hb'
    · refine ⟨fun hu => ?_, fun d hd => ?_⟩
      · rw [hb a ha'] at hu
        cases hu
      · rw [ha.data] at hd
        exact (hcross a ha' job List.mem_cons_self).created_first d hd
    · exact hcross a ha' b (List.mem_cons_of_mem _ hb')

theorem InOrder.transition (hr : Registered w) (ho : InOrder w) (hseq : Sequential w e)
    (h : Transition env w e w') : InOrder w' := by
  cases h with
  | refused _ => exact ho
  | @createTable dto d accepted =>
    have ha := enqueueCreateTable_ok accepted
    refine ho.enqueue fun d' hd' k hk he => ?_
    cases hd'
    have hlt := hr.tableId_lt k hk
    rw [he, ha.tableId] at hlt
    exact Nat.not_succ_lt_self hlt
  | fieldEdit _ =>
    exact ho.enqueue (n := 1) fun d' hd' => by cases hd'
  | @attempt job faults mem unfinished =>
    obtain ⟨job₀, hnext, hid⟩ := hseq
    have hmem₀ : job₀ ∈ w.jobs := List.mem_of_find?_eq_some hnext
    have he := hr.job_eq mem hmem₀ hid
    subst he
    exact ho.setJob hr hnext (Job.run_attempted env job₀ faults w.db)
  | createRow _ _ _ => exact ho
  | updateRow _ _ _ => exact ho

/-- Both the registry and the order hold in every sequential run. -/
theorem inOrder_reach {Ok : World → Event → Prop} {schema : String} {tables : Tables}
    (hby : ∀ n t, tables.lookup n = some t → t.createdBy = none)
    (hseq : ∀ w e, Ok w e → Sequential w e)
    (h : Reach (step env) Ok (bootstrapped schema tables) w) : InOrder w := by
  refine h.invariant (I := InOrder) .nil fun w w' e hreach ho hok hs => ?_
  exact ho.transition (registered_reach hby hreach) (hseq w e hok) (transition_of_step hs)

end Flexi.DynamicTables
