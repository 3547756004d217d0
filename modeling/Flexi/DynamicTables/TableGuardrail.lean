import Flexi.DynamicTables.SchemaCoherence

/-!
# The limit on tables

An admission adds the rows of `_meta_tables` and the create-table jobs in the lists, which
it reads at two moments. `reserved` are the tables that either side shows or is going to.
-/

namespace Flexi.DynamicTables.Interleaving
open Flexi.Library

/-! ### Rows and jobs -/

/-- The table a create-table job is going to add. -/
def createdTable : DdlJobData → Option Uuid
  | .createTable data => some data.tableId
  | .fieldEdit _ => none

def tableIds (db : TenantSchema) : List Uuid := db.metaTables.map MetaTable.id

/-- The create-table jobs among the waiting, active and delayed ones. -/
def pendingCreates (pending : List DdlJobData) : List Uuid := pending.filterMap createdTable

/-- The create-table jobs that can still add a row. -/
def Shared.stillToAdd (s : Shared) : List Uuid :=
  (pendingCreates s.pending).filter fun id => !(tableIds s.db).contains id

/-- The job that a step takes off the lists. -/
def leaving (env : Env) (s : Shared) : Work String → Option (Queued DdlJobData Task)
  | .complete i => s.jobs[i]?
  | .fail i _ _ => s.jobs[i]?.filter fun job =>
      !(job.attemptsMade + 1 < env.cfg.DDL_JOB_RETRY_COUNT)
  | .take _ | .commit _ => none

/-- No job that has added its row leaves the lists while a request that counted before has
not read them. -/
def LeavesCounted (env : Env) (b : Backend) : Move → Prop
  | .work w => ∀ job id, leaving env b.shared w = some job → createdTable job.data = some id →
      id ∈ tableIds b.shared.db → ∀ prepared counted,
        .creating prepared ⟨some counted, none⟩ ∈ b.requests → id ∈ tableIds counted
  | _ => True

/-! ### Rows of `_meta_tables` -/

section Rows

variable {env : Env} {db db' : TenantSchema}

theorem tableIds_congr (h : db'.metaTables = db.metaTables) : tableIds db' = tableIds db := by
  unfold tableIds
  rw [h]

theorem upsertMetaTable_tableIds {tableId : Uuid} {name : String} {description : Option String}
    (h : upsertMetaTable tableId name description db = .ok db') :
    tableIds db' = if tableId ∈ tableIds db then tableIds db else tableIds db ++ [tableId] := by
  unfold upsertMetaTable at h
  split at h
  · cases h
  dsimp only at h
  split at h
  · rename_i hany
    cases h
    obtain ⟨m, hm, hid⟩ := List.any_eq_true.mp hany
    have hmem : tableId ∈ tableIds db := List.mem_map.mpr ⟨m, hm, beq_iff_eq.mp hid⟩
    rw [if_pos hmem]
    unfold tableIds
    rw [List.map_map]
    refine List.map_congr_left fun k _ => ?_
    by_cases hk : k.id = tableId
    · simp [hk]
    · simp [hk]
  · rename_i hany
    cases h
    have hmem : tableId ∉ tableIds db := by
      intro hmem
      obtain ⟨m, hm, hid⟩ := List.mem_map.mp hmem
      exact hany (List.any_eq_true.mpr ⟨m, hm, beq_iff_eq.mpr hid⟩)
    rw [if_neg hmem]
    simp [tableIds]

theorem createTableBody_tableIds {data : CreateTableJobData}
    (h : createTableBody data db = .ok db') :
    tableIds db' =
      if data.tableId ∈ tableIds db then tableIds db else tableIds db ++ [data.tableId] := by
  obtain ⟨db₁, hmade, h⟩ := createTableBody_parts h
  have hsame : tableIds db₁ = tableIds db := by
    rcases hmade with rfl | ⟨cols, -, -, rfl⟩ <;> rfl
  obtain ⟨db₂, hup, h⟩ := except_bind_ok.mp h
  have hrows : tableIds db' = tableIds db₂ := tableIds_congr (upsertFields_ok h).metaTables
  rw [hrows, upsertMetaTable_tableIds hup, hsame]

theorem run_tableIds {pg : Postgres} {t : Task} (h : t.run pg db = .ok db') :
    tableIds db' = tableIds db ∨
      ∃ data, t = .createTable data ∧ tableIds db' = tableIds db ++ [data.tableId] ∧
        data.tableId ∉ tableIds db := by
  cases t with
  | createTable data =>
    have hids := createTableBody_tableIds h
    split at hids
    · exact .inl hids
    · rename_i hnew
      exact .inr ⟨data, rfl, hids, hnew⟩
  | step data s => exact .inl (tableIds_congr (executeStep_metadata h).1)
  | effects data => exact .inl (tableIds_congr (Catalog.applyEffects_frame h).2.1)
  | record row =>
    obtain ⟨rows, rfl⟩ := insertMigration_ok h
    exact .inl rfl

theorem data_of_task {data : CreateTableJobData} {job : DdlJobData}
    (h : .createTable data ∈ tasks job) :
    job = .createTable data := by
  cases job with
  | createTable other => simp_all [tasks]
  | fieldEdit other => simp [tasks] at h

end Rows

/-! ### Reservations -/

def reserved (s : Shared) : Finset Uuid :=
  (tableIds s.db).toFinset ∪ (pendingCreates s.pending).toFinset

theorem mem_pendingCreates {s : Shared} {id : Uuid} : id ∈ pendingCreates s.pending ↔
    ∃ job ∈ s.jobs, job.unfinished = true ∧ createdTable job.data = some id := by
  simp only [pendingCreates, Shared.pending, List.mem_filterMap, List.mem_map, List.mem_filter]
  constructor
  · rintro ⟨data, ⟨job, ⟨hjob, hunfinished⟩, rfl⟩, hid⟩
    exact ⟨job, hjob, hunfinished, hid⟩
  · rintro ⟨job, hjob, hunfinished, hid⟩
    exact ⟨job.data, ⟨job, ⟨hjob, hunfinished⟩, rfl⟩, hid⟩

theorem filter_creates {f : DdlJobData → Bool} (hf : ∀ data, f data = (createdTable data).isSome)
    (pending : List DdlJobData) : (pending.filter f).length = (pendingCreates pending).length := by
  induction pending with
  | nil => rfl
  | cons data pending ih =>
    rw [pendingCreates, List.filterMap_cons, List.filter_cons, hf]
    cases createdTable data with
    | none => exact ih
    | some id => exact congrArg (· + 1) ih

theorem within_of_admitted (pending : List DdlJobData) (cfg : Config) (db : TenantSchema)
    (h : enqueueCreateTableWithinLimit cfg db pending = .ok ()) :
    (tableIds db).length +
    (pendingCreates pending).length < cfg.DYNAMIC_TABLES_MAX_TABLES_PER_TENANT := by
  unfold enqueueCreateTableWithinLimit at h
  dsimp only at h
  split at h
  · cases h
  · rename_i hlt
    rw [filter_creates] at hlt
    · rw [tableIds, List.length_map]
      omega
    · intro data
      cases data <;> rfl

/-- Rows and create-table jobs that can still add one are all reservations. -/
theorem total_le {s : Shared} (hrows : (tableIds s.db).Nodup)
    (hjobs : (pendingCreates s.pending).Nodup) :
    s.db.metaTables.length + s.stillToAdd.length ≤ (reserved s).card := by
  have hdisjoint : (tableIds s.db ++ s.stillToAdd).Nodup := by
    refine List.nodup_append.mpr ⟨hrows, hjobs.filter _, fun id hid id' hid' heq => ?_⟩
    have hnot := (List.mem_filter.mp hid').2
    rw [← heq] at hnot
    simp [hid] at hnot
  have hlength : s.db.metaTables.length
      + s.stillToAdd.length = (tableIds s.db ++ s.stillToAdd).length := by
    rw [List.length_append, tableIds, List.length_map]
  rw [hlength, ← List.toFinset_card_of_nodup hdisjoint]
  refine Finset.card_le_card fun id hid => ?_
  rw [List.mem_toFinset, List.mem_append] at hid
  rw [reserved, Finset.mem_union, List.mem_toFinset, List.mem_toFinset]
  exact hid.imp_right List.mem_of_mem_filter

/-- What an admission has read reaches to all reservations, once it has read the rest. -/
def Request.Covers (s : Shared) : Request → Prop
  | .creating _ ⟨some counted, none⟩ =>
    reserved s ⊆ (tableIds counted).toFinset ∪ (pendingCreates s.pending).toFinset
  | .creating _ ⟨none, some listed⟩ => (pendingCreates s.pending).toFinset ⊆
      (pendingCreates listed).toFinset
  | .creating _ ⟨some counted, some listed⟩ =>
    reserved s ⊆ (tableIds counted).toFinset ∪ (pendingCreates listed).toFinset
  | _ => True

/-- What holds in every state. -/
structure TableGuard (env : Env) (b : Backend) : Prop where
  rows : (tableIds b.shared.db).Nodup
  jobs : ((b.shared.jobs.map Queued.data).filterMap createdTable).Nodup
  fresh : ∀ id ∈ (b.shared.jobs.map Queued.data).filterMap createdTable, id < b.shared.nextUuid
  aligned : ∀ job ∈ b.shared.jobs, job.Aligned (worker env)
  within : (reserved b.shared).card ≤ env.cfg.DYNAMIC_TABLES_MAX_TABLES_PER_TENANT
  covers : ∀ r ∈ b.requests, r.Covers b.shared

theorem Request.Covers.congr {s s' : Shared} {r : Request} (h : r.Covers s)
    (hrows : tableIds s'.db = tableIds s.db)
    (hjobs : pendingCreates s'.pending = pendingCreates s.pending) :
    r.Covers s' := by
  have hreserved : reserved s' = reserved s := by rw [reserved, reserved, hrows, hjobs]
  unfold Request.Covers at h ⊢
  rw [hreserved, hjobs]
  exact h

/-! ### A step of the worker -/

section Worker

variable {env : Env} {s s' : Shared} {i : ℕ} {job job' : Queued DdlJobData Task} {w : Work String}
  {db : TenantSchema}

theorem map_data_set (hjob : s.jobs[i]? = some job) (hdata : job'.data = job.data) :
    (s.jobs.set i job').map Queued.data = s.jobs.map Queued.data := by
  have hlt : i < s.jobs.length := (List.getElem?_eq_some_iff.mp hjob).1
  refine List.ext_getElem? fun j => ?_
  rw [List.getElem?_map, List.getElem?_map]
  by_cases hij : i = j
  · subst hij
    rw [List.getElem?_set_self hlt, hjob, Option.map_some, Option.map_some, hdata]
  · rw [List.getElem?_set_ne hij]

theorem pending_of_worked (hjob : s.jobs[i]? = some job)
    (hworked : Worked (worker env) s.db i job w job' db) (hjobs : s'.jobs = s.jobs.set i job')
    {id : Uuid}
    (hid : id ∈ pendingCreates s'.pending) : id ∈ pendingCreates s.pending := by
  obtain ⟨k, hk, hunfinished, hkid⟩ := mem_pendingCreates.mp hid
  rw [hjobs] at hk
  rcases mem_set_job hk with rfl | hk
  · rw [hworked.data] at hkid
    exact mem_pendingCreates.mpr ⟨job, List.mem_of_getElem? hjob, hworked.unfinished, hkid⟩
  · exact mem_pendingCreates.mpr ⟨k, hk, hunfinished, hkid⟩

theorem pending_or_left (hjob : s.jobs[i]? = some job) (hjobs : s'.jobs = s.jobs.set i job')
    (hdata : job'.data = job.data) {id : Uuid} (hid : id ∈ pendingCreates s.pending) :
    id ∈ pendingCreates s'.pending ∨ createdTable job.data = some id ∧ job'.unfinished = false := by
  obtain ⟨k, hk, hunfinished, hkid⟩ := mem_pendingCreates.mp hid
  obtain ⟨hlt, hget⟩ := List.getElem?_eq_some_iff.mp hjob
  obtain ⟨j, hj⟩ := List.mem_iff_getElem?.mp hk
  by_cases hij : i = j
  · subst hij
    rw [hjob] at hj
    cases hj
    by_cases hstill : job'.unfinished = true
    · refine .inl (mem_pendingCreates.mpr ⟨job', ?_, hstill, hdata ▸ hkid⟩)
      rw [hjobs]
      exact List.mem_set hlt _
    · exact .inr ⟨hkid, by simpa using hstill⟩
  · refine .inl (mem_pendingCreates.mpr ⟨k, ?_, hunfinished, hkid⟩)
    rw [hjobs]
    refine List.mem_of_getElem? (i := j) ?_
    rw [List.getElem?_set_ne hij]
    exact hj

theorem rows_of_worked (ha : job.Aligned (worker env))
    (hworked : Worked (worker env) s.db i job w job' db) :
    tableIds db = tableIds s.db ∨ ∃ id, createdTable job.data = some id ∧ id ∉ tableIds s.db ∧
      tableIds db = tableIds s.db ++ [id] := by
  cases hworked with
  | take | complete => exact .inl rfl
  | @commit t rest db hphase hrun =>
    rcases run_tableIds hrun with hsame | ⟨data, rfl, hids, hnew⟩
    · exact .inl hsame
    · have hdata := data_of_task (ha.head_mem hphase)
      exact .inr ⟨data.tableId, by rw [hdata]; rfl, hnew, hids⟩
  | fail error noted hphase =>
    left
    split
    · obtain ⟨rows, hnote⟩ := note_eq env _ error s.db
      rw [hnote]
      rfl
    · rfl

/-- A job that leaves the lists adds nothing in that step. -/
theorem left_of_worked (hjob : s.jobs[i]? = some job)
    (hworked : Worked (worker env) s.db i job w job' db)
    (hleft : job'.unfinished = false) : leaving env s w = some job ∧
    tableIds db = tableIds s.db := by
  cases hworked with
  | take | commit => cases hleft
  | complete => exact ⟨hjob, rfl⟩
  | fail error noted hphase =>
    refine ⟨?_, ?_⟩
    · have hlast : ¬ job.attemptsMade + 1 < env.cfg.DDL_JOB_RETRY_COUNT := by
        intro hlt
        have hlt' : job.attemptsMade + 1 < (worker env).attempts := hlt
        simp [Queued.unfinished, Queued.failed, hlt', Phase.unfinished] at hleft
      simp [leaving, hjob, hlast]
    · split
      · obtain ⟨rows, hnote⟩ := note_eq env _ error s.db
        rw [hnote]
        rfl
      · rfl

end Worker

namespace TableGuard

variable {env : Env} {b b' : Backend}

theorem mem_reserved {s : Shared} {id : Uuid} :
    id ∈ reserved s ↔ id ∈ tableIds s.db ∨ id ∈ pendingCreates s.pending := by
  rw [reserved, Finset.mem_union, List.mem_toFinset, List.mem_toFinset]

theorem reserved_of_worked {s s' : Shared} {i : ℕ} {job job' : Queued DdlJobData Task}
    {w : Work String}
    (hjob : s.jobs[i]? = some job) (ha : job.Aligned (worker env))
    (hworked : Worked (worker env) s.db i job w job' s'.db) (hjobs : s'.jobs = s.jobs.set i job') :
    reserved s' ⊆ reserved s := by
  intro id hid
  rw [mem_reserved] at hid ⊢
  rcases hid with hid | hid
  · rcases rows_of_worked ha hworked with hsame | ⟨new, hnew, -, hids⟩
    · rw [hsame] at hid
      exact .inl hid
    · rw [hids, List.mem_append, List.mem_singleton] at hid
      rcases hid with hid | rfl
      · exact .inl hid
      · exact .inr (mem_pendingCreates.mpr ⟨job, List.mem_of_getElem? hjob, hworked.unfinished,
            hnew⟩)
  · exact .inr (pending_of_worked hjob hworked hjobs hid)

theorem covers_of_worked {s s' : Shared} {i : ℕ} {job job' : Queued DdlJobData Task}
    {w : Work String}
    (hjob : s.jobs[i]? = some job) (ha : job.Aligned (worker env))
    (hworked : Worked (worker env) s.db i job w job' s'.db) (hjobs : s'.jobs = s.jobs.set i job')
    {r : Request} (hcovers : r.Covers s)
    (hcounted : ∀ job id, leaving env s w = some job → createdTable job.data = some id →
      id ∈ tableIds s.db → ∀ prepared counted, r = .creating prepared ⟨some counted, none⟩ →
        id ∈ tableIds counted) : r.Covers s' := by
  have hreserved := reserved_of_worked hjob ha hworked hjobs
  unfold Request.Covers at hcovers ⊢
  split at hcovers
  · rename_i prepared counted
    intro id hid
    have hold := hcovers (hreserved hid)
    rw [Finset.mem_union, List.mem_toFinset, List.mem_toFinset] at hold ⊢
    rcases hold with hold | hold
    · exact .inl hold
    · rcases pending_or_left hjob hjobs hworked.data hold with hstill | ⟨hmine, hleft⟩
      · exact .inr hstill
      · obtain ⟨hleaving, hsame⟩ := left_of_worked hjob hworked hleft
        rcases mem_reserved.mp hid with hrow | hpending
        · rw [hsame] at hrow
          exact .inl (hcounted job id hleaving hmine hrow prepared counted rfl)
        · exact .inr hpending
  · rename_i prepared listed
    intro id hid
    rw [List.mem_toFinset] at hid
    exact hcovers (List.mem_toFinset.mpr (pending_of_worked hjob hworked hjobs hid))
  · exact hreserved.trans hcovers
  · trivial

theorem work (h : TableGuard env b) {i : ℕ} {job job' : Queued DdlJobData Task} {w : Work String}
    {db : TenantSchema} {replaced : List (ℕ × String)} (hjob : b.shared.jobs[i]? = some job)
    (hok : LeavesCounted env b (.work w))
    (hworked : Worked (worker env) b.shared.db i job w job' db) :
    TableGuard env { b with shared := { b.shared with
      db := db, jobs := b.shared.jobs.set i job', replaced := replaced } } := by
  have hmem : job ∈ b.shared.jobs := List.mem_of_getElem? hjob
  have ha := h.aligned job hmem
  have hdata := map_data_set hjob hworked.data
  refine ⟨?_, ?_, ?_, ?_, ?_, ?_⟩
  · rcases rows_of_worked ha hworked with hsame | ⟨new, -, hnew, hids⟩
    · rw [hsame]
      exact h.rows
    · rw [hids]
      refine List.nodup_append.mpr ⟨h.rows, List.nodup_singleton _, fun id hid id' hid' heq =>
          hnew ?_⟩
      rw [← List.mem_singleton.mp hid', ← heq]
      exact hid
  · rw [hdata]
    exact h.jobs
  · rw [hdata]
    exact h.fresh
  · intro k hk
    rcases mem_set_job hk with rfl | hk
    · exact hworked.aligned ha
    · exact h.aligned k hk
  · exact (Finset.card_le_card (reserved_of_worked hjob ha hworked rfl)).trans h.within
  · intro r hr
    refine covers_of_worked hjob ha hworked rfl (h.covers r hr)
        fun job id hleaving hid hrow prepared counted heq => ?_
    exact hok job id hleaving hid hrow prepared counted (heq ▸ hr)

theorem frame (h : TableGuard env b) {s : Shared} {requests : List Request}
    (hrows : tableIds s.db = tableIds b.shared.db)
    (hpending : pendingCreates s.pending = pendingCreates b.shared.pending)
    (hjobs : (s.jobs.map Queued.data).filterMap createdTable =
      (b.shared.jobs.map Queued.data).filterMap createdTable)
    (huuid : b.shared.nextUuid ≤ s.nextUuid) (haligned : ∀ job ∈ s.jobs, job.Aligned (worker env))
    (hcovers : ∀ r ∈ requests, r ∈ b.requests ∨ r.Covers b.shared) :
    TableGuard env { shared := s, requests := requests } where
  rows := hrows ▸ h.rows
  jobs := hjobs ▸ h.jobs
  fresh id hid := by
    have hlt := h.fresh id (hjobs ▸ hid)
    exact lt_of_lt_of_le hlt huuid
  aligned := haligned
  within := by
    have hsame : reserved s = reserved b.shared := by rw [reserved, reserved, hrows, hpending]
    show (reserved s).card ≤ _
    rw [hsame]
    exact h.within
  covers r hr := by
    rcases hcovers r hr with hr | hr
    · exact (h.covers r hr).congr hrows hpending
    · exact hr.congr hrows hpending

theorem pending_add (s : Shared) (data : DdlJobData) (n : ℕ) :
    pendingCreates (s.add data n).pending = pendingCreates s.pending ++
        (createdTable data).toList := by
  rw [pending_append, pendingCreates, List.filterMap_append]
  cases h : createdTable data with
  | none => simp [pendingCreates, h]
  | some id => simp [pendingCreates, h]

theorem jobs_add (s : Shared) (data : DdlJobData) (n : ℕ) :
    ((s.add data n).jobs.map Queued.data).filterMap createdTable =
      (s.jobs.map Queued.data).filterMap createdTable ++ (createdTable data).toList := by
  simp only [Shared.add, List.map_append, List.filterMap_append]
  cases h : createdTable data with
  | none => simp [h]
  | some id => simp [h]

theorem queue_edit (h : TableGuard env b) (data : FieldEditJobData) {requests : List Request}
    (hcovers : ∀ r ∈ requests, r ∈ b.requests ∨ r.Covers b.shared) :
    TableGuard env { shared := b.shared.add (.fieldEdit data) 1, requests := requests } := by
  refine h.frame rfl ?_ ?_ (Nat.le_succ _) (aligned_add h.aligned _ _) hcovers
  · rw [pending_add]
    exact List.append_nil _
  · rw [jobs_add]
    exact List.append_nil _

/-- A table within the limit is queued; nobody else has read anything for an admission. -/
theorem queue_table (h : TableGuard env b) {i : ℕ} {prepared : PreparedTable}
    {counted : TenantSchema} {listed : List DdlJobData} (hexclusive : Exclusive b)
    (hr : b.requests[i]? = some (.creating prepared ⟨some counted, some listed⟩))
    (hlimit : enqueueCreateTableWithinLimit env.cfg counted listed = .ok ())
    (data : CreateTableJobData)
    (hid : data.tableId = b.shared.nextUuid + 1) :
    TableGuard env
      { shared := b.shared.add (.createTable data) 2, requests := b.requests.set i .created } := by
  have hcreated : (createdTable (.createTable data)).toList = [data.tableId] := rfl
  have hpending : pendingCreates (b.shared.add (.createTable data) 2).pending =
      pendingCreates b.shared.pending ++ [data.tableId] := pending_add _ _ _
  have hjobs : ((b.shared.add (.createTable data) 2).jobs.map Queued.data).filterMap createdTable =
      (b.shared.jobs.map Queued.data).filterMap createdTable ++ [data.tableId] := jobs_add _ _ _
  have hnew : data.tableId ∉ (b.shared.jobs.map Queued.data).filterMap createdTable := by
    intro hmem
    have hlt := h.fresh _ hmem
    rw [hid] at hlt
    exact absurd hlt (Nat.not_lt.mpr (Nat.le_succ _))
  refine ⟨h.rows, ?_, ?_, aligned_add h.aligned _ _, ?_, ?_⟩
  · rw [hjobs]
    refine List.nodup_append.mpr ⟨h.jobs, List.nodup_singleton _, fun id hid id' hid' heq =>
        hnew ?_⟩
    rw [← List.mem_singleton.mp hid', ← heq]
    exact hid
  · intro id hmem
    show id < b.shared.nextUuid + 2
    rw [hjobs, List.mem_append, List.mem_singleton] at hmem
    rcases hmem with hmem | rfl
    · exact Nat.lt_add_right 2 (h.fresh id hmem)
    · rw [hid]
      exact Nat.lt_succ_self _
  · have hcovers : reserved b.shared ⊆ (tableIds counted).toFinset ∪
        (pendingCreates listed).toFinset :=
      h.covers _ (List.mem_of_getElem? hr)
    have hadded : reserved (b.shared.add (.createTable data) 2) ⊆ insert data.tableId
        (reserved b.shared) := by
      intro id hmem
      rw [mem_reserved, hpending, List.mem_append, List.mem_singleton] at hmem
      rw [Finset.mem_insert, mem_reserved]
      tauto
    have hroom := within_of_admitted listed env.cfg counted hlimit
    calc (reserved (b.shared.add (.createTable data) 2)).card
        ≤ (insert data.tableId (reserved b.shared)).card := Finset.card_le_card hadded
      _ ≤ (reserved b.shared).card + 1 := Finset.card_insert_le _ _
      _ ≤ ((tableIds counted).toFinset ∪ (pendingCreates listed).toFinset).card + 1 :=
        Nat.add_le_add_right (Finset.card_le_card hcovers) 1
      _ ≤ (tableIds counted).length + (pendingCreates listed).length + 1 := by
        have hunion := Finset.card_union_le (tableIds counted).toFinset
            (pendingCreates listed).toFinset
        have hcounted := List.toFinset_card_le (tableIds counted)
        have hlisted := List.toFinset_card_le (pendingCreates listed)
        omega
      _ ≤ env.cfg.DYNAMIC_TABLES_MAX_TABLES_PER_TENANT := by omega
  · intro k hk
    obtain ⟨j, hj⟩ := List.mem_iff_getElem?.mp hk
    by_cases hij : i = j
    · subst hij
      have hlt : i < b.requests.length := (List.getElem?_eq_some_iff.mp hr).1
      rw [List.getElem?_set_self hlt] at hj
      cases hj
      trivial
    · rw [List.getElem?_set_ne hij] at hj
      have hother : k.holds ≠ some .tables := fun hholds =>
          hij (hexclusive .tables i j _ k hr hj rfl hholds)
      cases k with
      | creating prepared reads => exact absurd rfl hother
      | _ => trivial

theorem next (h : TableGuard env b) (hexclusive : Exclusive b) {i : ℕ} {r r' : Request} {s : Shared}
    (hr : b.requests[i]? = some r) (hnext : Advanced env b.free b.shared r r' s) :
    TableGuard env { shared := s, requests := b.requests.set i r' } := by
  have hset {k : Request} (hk : k ∈ b.requests.set i r') (hr' : r'.Covers b.shared) :
      k ∈ b.requests ∨ k.Covers b.shared := by
    rcases mem_set_request hk with rfl | hk
    · exact .inr hr'
    · exact .inl hk
  cases hnext with
  | tableQueued hlimit => exact h.queue_table hexclusive hr hlimit _ rfl
  | editQueued | editAdmitted => exact h.queue_edit _ fun k hk => hset hk trivial
  | served hstatement =>
    refine h.frame ?_ rfl rfl le_rfl h.aligned fun k hk => hset hk trivial
    cases statement_written hstatement <;> rfl
  | ended | prepared | tableFound | built | locked | unlocked | invalidated | rowTable | rowFound
  | hit | missed | fetched | cached =>
    exact h.frame rfl rfl rfl le_rfl h.aligned fun k hk => hset hk trivial

/-- The two reads of an admission, in either order. -/
theorem covers_count {s : Shared} {r r' : Request} (h : r.Covers s)
    (hcount : countRows s r = some r') :
    r'.Covers s := by
  unfold countRows at hcount
  split at hcount
  · rename_i prepared listed
    cases hcount
    cases listed with
    | none => exact Finset.Subset.refl _
    | some listed => exact Finset.union_subset_union_right h
  · cases hcount
    trivial
  · cases hcount

theorem covers_list {s : Shared} {r r' : Request} (h : r.Covers s)
    (hlist : listJobs s r = some r') :
    r'.Covers s := by
  unfold listJobs at hlist
  split at hlist
  · rename_i prepared counted
    cases hlist
    cases counted with
    | none => exact Finset.Subset.refl _
    | some counted => exact h
  · cases hlist
    trivial
  · cases hlist

theorem step (h : TableGuard env b) (hexclusive : Exclusive b) {m : Move}
    (hok : LeavesCounted env b m)
    (hs : Stepped env b m b') : TableGuard env b' := by
  cases hs with
  | receive call =>
    refine h.frame rfl rfl rfl le_rfl h.aligned fun k hk => ?_
    rcases List.mem_append.mp hk with hk | hk
    · exact .inl hk
    · rw [List.mem_singleton.mp hk]
      right
      cases call <;> trivial
  | next hr hnext => exact h.next hexclusive hr hnext
  | count hr hcount =>
    refine h.frame rfl rfl rfl le_rfl h.aligned fun k hk => ?_
    rcases mem_set_request hk with rfl | hk
    · exact .inr (covers_count (h.covers _ (List.mem_of_getElem? hr)) hcount)
    · exact .inl hk
  | list hr hlist =>
    refine h.frame rfl rfl rfl le_rfl h.aligned fun k hk => ?_
    rcases mem_set_request hk with rfl | hk
    · exact .inr (covers_list (h.covers _ (List.mem_of_getElem? hr)) hlist)
    · exact .inl hk
  | abort hr =>
    refine h.frame rfl rfl rfl le_rfl h.aligned fun k hk => ?_
    rcases mem_set_request hk with rfl | hk
    · exact .inr trivial
    · exact .inl hk
  | work hjob hworked => exact h.work hjob hok hworked

end TableGuard

theorem guarded_started (env : Env) (schema : String) (tables : Tables) :
    TableGuard env (started schema tables) where
  rows := List.nodup_nil
  jobs := List.nodup_nil
  fresh id hid := by cases hid
  aligned job hjob := by cases hjob
  within := Nat.zero_le _
  covers r hr := by cases hr

theorem guarded_reach {env : Env} {schema : String} {tables : Tables} {b : Backend}
    (h : Reach (step env) (LeavesCounted env) (started schema tables) b) : TableGuard env b :=
  h.invariant (guarded_started env schema tables) fun _ _ _ hr hg hok hs =>
    hg.step (exclusive_reach hr) hok (stepped_of_step hs)

/-- As long as no job with its row leaves the lists between the two reads of an admission,
rows and create-table jobs that can still add one never exceed the limit. -/
theorem tables_within_limit {env : Env} {schema : String} {tables : Tables} {b : Backend}
    (h : Reach (step env) (LeavesCounted env) (started schema tables) b) :
    b.shared.db.metaTables.length + b.shared.stillToAdd.length ≤
      env.cfg.DYNAMIC_TABLES_MAX_TABLES_PER_TENANT := by
  have hg := guarded_reach h
  have hsub : (pendingCreates b.shared.pending).Sublist
      ((b.shared.jobs.map Queued.data).filterMap createdTable) :=
    (List.filter_sublist.map _).filterMap _
  exact (total_le hg.rows (hg.jobs.sublist hsub)).trans hg.within

/-! ### One table at most -/

def oneTable : Env := { plainEnv with cfg := { DYNAMIC_TABLES_MAX_TABLES_PER_TENANT := 1 } }

def secondTable : CreateTableDto := { ordersTable with name := "customers" }

/-- No admission is between its reads when a job ends. -/
def readsTogether (b : Backend) : Move → Bool
  | .work (.complete _) | .work (.fail _ _ _) => b.requests.all fun r => r.holds == none
  | _ => true

theorem leavesCounted_of_readsTogether {b : Backend} {m : Move} (h : readsTogether b m = true) :
    LeavesCounted oneTable b m := by
  cases m with
  | work w =>
    intro job id hleaving _ _ prepared counted hmem
    have hnone : b.requests.all (fun r => r.holds == none) = true := by
      cases w with
      | complete i | fail i error noted => exact h
      | take i | commit i => cases hleaving
    have hholds := List.all_eq_true.mp hnone _ hmem
    cases hholds
  | receive | next | count | list | abort => trivial

theorem tables_within_limit_one : ∃ b : Backend, b.shared.db.metaTables.length = 1 ∧
    b.shared.db.metaTables.length + b.shared.stillToAdd.length ≤ 1 := by
  have hrun : ((runChecked (step oneTable) readsTogether (started "tenant_a" ∅)
      (createRun 0 ordersTable ++ workRun 0 2)).any fun b =>
          b.shared.db.metaTables.length == 1) = true := by
    decide +kernel
  obtain ⟨b, hb, hone⟩ := (Option.any_eq_true _ _).mp hrun
  exact ⟨b, beq_iff_eq.mp hone,
    tables_within_limit (.of_runChecked (fun _ _ h => leavesCounted_of_readsTogether h) hb)⟩

/-- The second request counts before the first job has added its row, and lists after it
has completed. -/
def missedRun : List Move :=
  createRun 0 ordersTable ++ [.receive (.createTable secondTable), .next 1,
      .count 1] ++ workRun 0 2 ++
    [.list 1, .next 1]

theorem job_missed_by_both_reads : ¬ ∀ (env : Env) (schema : String) (tables : Tables)
    (b : Backend),
    Reach (step env) (fun _ _ => True) (started schema tables) b →
      b.shared.db.metaTables.length + b.shared.stillToAdd.length ≤
        env.cfg.DYNAMIC_TABLES_MAX_TABLES_PER_TENANT := by
  intro hall
  have hrun : ((runAll (step oneTable) (started "tenant_a" ∅) missedRun).any fun b =>
      b.shared.db.metaTables.length + b.shared.stillToAdd.length == 2) = true := by
    decide +kernel
  obtain ⟨b, hb, htwo⟩ := (Option.any_eq_true _ _).mp hrun
  have hle := hall oneTable "tenant_a" ∅ b (.of_runAll (.of_labels (fun _ _ _ => trivial) _) hb)
  rw [beq_iff_eq.mp htwo] at hle
  exact absurd hle (by decide)

end Flexi.DynamicTables.Interleaving
