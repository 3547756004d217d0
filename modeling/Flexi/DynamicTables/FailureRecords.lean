import Flexi.DynamicTables.FieldRows

/-!
# The record of a failed attempt

An attempt that fails inside a transaction on the tenant's tables records the failure
in `_meta_migrations`, whose rows refer to the table's row in `_meta_tables`.
-/

namespace Flexi.DynamicTables
open Flexi.Library

/-! ### Where an attempt fails -/

/-- From `s` the attempt comes to a DDL transaction that fails with `e`, and stands at
`st` then: the only one of a create-table job, or that of some step of a field edit. -/
inductive FailsInDdl (pg : Postgres) : DdlJobData → TxState TenantSchema → String →
    TxState TenantSchema → Prop
  | createTable {data : CreateTableJobData} {s st : TxState TenantSchema} {e : String}
      (fails : (TxProg.transaction (createTableBody data)).exec s = (.error e, st)) :
      FailsInDdl pg (.createTable data) s e st
  | step {data : FieldEditJobData} {before after : List FieldEditStep} {step : FieldEditStep}
      {s s₁ st : TxState TenantSchema} {e : String} (steps : data.steps = before ++ step :: after)
      (done : (before.forM (runStep pg data)).exec s = (.ok (), s₁))
      (fails : (TxProg.transaction (executeStep pg data.tableName step)).exec s₁ =
        (.error e, st)) :
      FailsInDdl pg (.fieldEdit data) s e st

/-- `_meta_tables` has a row with this id. -/
def TenantSchema.knows (db : TenantSchema) (tableId : Uuid) : Bool :=
  db.metaTables.any fun m => m.id == tableId

variable {pg : Postgres}

theorem knows_congr {db db' : TenantSchema} (h : db'.metaTables = db.metaTables)
    (tableId : Uuid) : db'.knows tableId = db.knows tableId := by
  rw [TenantSchema.knows, TenantSchema.knows, h]

theorem runSteps_metaTables (pg : Postgres) (data : FieldEditJobData) (steps : List FieldEditStep)
    (rows : List MetaTable) :
    TxProg.Triple (fun s => s.store.metaTables = rows) (steps.forM (runStep pg data))
      (fun _ s => s.store.metaTables = rows) (fun s => s.store.metaTables = rows) := by
  have hrecord (row : MetaMigration) : TxProg.Triple (fun s => s.store.metaTables = rows)
      (recordMigration row) (fun _ s => s.store.metaTables = rows)
      (fun s => s.store.metaTables = rows) := by
    refine .write ?_ fun s fs hs => hs
    intro s d fs hs hd
    split at hd
    · cases hd
    · cases hd
      exact hs
  refine .forM (I := fun _ (s : TxState TenantSchema) => s.store.metaTables = rows) ?_
  intro before step after _
  refine .tryCatch (.bind (.transaction ?_ fun s fs hs => hs) fun _ => hrecord _) fun e => ?_
  · intro s d fs hs hd
    exact (executeStep_metadata hd).1.trans hs
  · exact .bind (hrecord _) fun _ => .throw fun s hs => hs

/-! ### What the attempt records -/

/-- The failed attempt's row goes in when its table is known. -/
theorem recordMigration_known {row : MetaMigration} {st : TxState TenantSchema} {tableId : Uuid}
    (hrow : row.tableId = some tableId) (hfault : st.faults.headD none = none)
    (h : st.store.knows tableId = true) :
    (recordMigration row).exec st =
      (.ok (), { st with
        store := { st.store with metaMigrations := st.store.metaMigrations ++ [row] }
        faults := st.faults.tail }) := by
  refine TxProg.exec_write_ok hfault ?_
  rw [hrow]
  simp [show (st.store.metaTables.any fun m => m.id == tableId) = true from h]

theorem recordMigration_unknown {row : MetaMigration} {st : TxState TenantSchema} {tableId : Uuid}
    (hrow : row.tableId = some tableId) (hfault : st.faults.headD none = none)
    (h : st.store.knows tableId = false) :
    (recordMigration row).exec st =
      (.error "insert or update on table \"_meta_migrations\" violates foreign key constraint",
        { st with faults := st.faults.tail }) := by
  refine TxProg.exec_write_error hfault ?_
  rw [hrow]
  simp [show (st.store.metaTables.any fun m => m.id == tableId) = false from h]

structure FailureRow (data : DdlJobData) (e : String) (row : MetaMigration) : Prop where
  tableId : row.tableId = some data.tableId
  jobId : row.jobId = data.jobId
  status : row.status = .failed
  error : row.error = some e

theorem exec_caught {body : TenantSchema → Except String TenantSchema} {rest : DdlProg}
    {handle : String → DdlProg} {s st : TxState TenantSchema} {e : String}
    (hbody : (TxProg.transaction body).exec s = (.error e, st)) :
    (tryCatch (do
      TxProg.transaction body
      rest) handle : DdlProg).exec s = (handle e).exec st := by
  rw [TxProg.exec_tryCatch, TxProg.exec_bind, hbody]

theorem exec_abandoned {x : DdlProg} {f : Unit → DdlProg} {s s' : TxState TenantSchema} {e : String}
    (hx : x.exec s = (.error e, s')) : (x >>= f).exec s = (.error e, s') := by
  rw [TxProg.exec_bind, hx]

/-- The attempt ends with the row of its failure and the error, if the row goes in. -/
theorem FailsInDdl.exec {data : DdlJobData} {s st : TxState TenantSchema} {e : String}
    (h : FailsInDdl pg data s e st) :
    ∃ row, FailureRow data e row ∧ st.store.knows data.tableId = s.store.knows data.tableId ∧
      ∀ e' s', (do
        recordMigration row
        throw e : DdlProg).exec st = (.error e', s') → (process pg data).exec s = (.error e', s') := by
  cases h with
  | @createTable data s st e fails =>
    refine ⟨createTableMigration data .failed (some e), ⟨rfl, rfl, rfl, rfl⟩, ?_, ?_⟩
    · rw [TxProg.store_of_exec_transaction_error fails]
    · intro e' s' hrecord
      exact (exec_caught fails).trans hrecord
  | @step data before after step s s₁ st e hsteps done fails =>
    refine ⟨stepMigration data step .failed (some e), ⟨rfl, rfl, rfl, rfl⟩, ?_, ?_⟩
    · rw [TxProg.store_of_exec_transaction_error fails]
      have hkeep := runSteps_metaTables pg data before s.store.metaTables s rfl
      rw [done] at hkeep
      exact knows_congr hkeep data.tableId
    · intro e' s' hrecord
      have hstep : (runStep pg data step).exec s₁ = (.error e', s') :=
        (exec_caught fails).trans hrecord
      refine exec_abandoned ?_
      have hsplit : (before ++ step :: after).forM (runStep pg data) =
          (before.forM (runStep pg data) >>= fun _ =>
            runStep pg data step >>= fun _ => after.forM (runStep pg data)) :=
        List.forM_append
      rw [hsteps, hsplit, TxProg.exec_bind, done]
      exact exec_abandoned hstep

/-! ### The job's status -/

/-- The attempt has added the row of its failure to what was committed when it failed,
and the job's reason is the error. -/
structure FailureRecorded (env : Env) (job : Job) (faults : List (Option String))
    (db : TenantSchema) (e : String) (st : TxState TenantSchema) : Prop where
  rejects : ((process env.pg job.data).exec
    { store := db, faults := faults, committed := 0 }).1 = .error e
  reason : (job.run env faults db).1.failedReason = some e
  row : ∃ row, FailureRow job.data e row ∧
    (job.run env faults db).2.metaMigrations = st.store.metaMigrations ++ [row]

section

variable {env : Env} {job : Job} {faults : List (Option String)} {db : TenantSchema} {e : String}
  {st : TxState TenantSchema}

theorem Job.run_of_error {s : TxState TenantSchema}
    (h : (process env.pg job.data).exec { store := db, faults := faults, committed := 0 } =
      (.error e, s)) :
    (job.run env faults db).1.failedReason = some e ∧ (job.run env faults db).2 = s.store := by
  unfold Job.run
  rw [h]
  exact ⟨rfl, rfl⟩

theorem headD_of_all_none (h : ∀ fault ∈ faults, fault = none) : faults.headD none = none := by
  cases faults with
  | nil => rfl
  | cons fault rest => exact h fault List.mem_cons_self

theorem FailsInDdl.recorded
    (h : FailsInDdl env.pg job.data { store := db, faults := faults, committed := 0 } e st)
    (haccepts : ∀ fault ∈ st.faults, fault = none) (hdb : db.knows job.data.tableId = true) :
    FailureRecorded env job faults db e st := by
  obtain ⟨row, hrow, hknows, hexec⟩ := h.exec
  have hrecord := recordMigration_known hrow.tableId (headD_of_all_none haccepts)
    (hknows.trans hdb)
  have hrun := hexec e _ (by rw [TxProg.exec_bind, hrecord]; rfl)
  obtain ⟨hreason, hstore⟩ := Job.run_of_error hrun
  refine ⟨?_, hreason, row, hrow, ?_⟩
  · rw [hrun]
  · rw [hstore]

/-- Otherwise the attempt rejects with the error of the record itself, and nothing is
recorded. -/
theorem FailsInDdl.masked
    (h : FailsInDdl env.pg job.data { store := db, faults := faults, committed := 0 } e st)
    (haccepts : ∀ fault ∈ st.faults, fault = none) (hdb : db.knows job.data.tableId = false) :
    (job.run env faults db).1.failedReason =
        some "insert or update on table \"_meta_migrations\" violates foreign key constraint" ∧
      (job.run env faults db).2.metaMigrations = st.store.metaMigrations := by
  obtain ⟨row, hrow, hknows, hexec⟩ := h.exec
  have hrecord := recordMigration_unknown hrow.tableId (headD_of_all_none haccepts)
    (hknows.trans hdb)
  obtain ⟨hreason, hstore⟩ := Job.run_of_error (hexec _ _ (exec_abandoned hrecord))
  exact ⟨hreason, congrArg TenantSchema.metaMigrations hstore⟩

theorem FailureRecorded.not_masked (h : FailureRecorded env job faults db e st) :
    (job.run env faults db).2.metaMigrations ≠ st.store.metaMigrations := by
  obtain ⟨row, -, hrows⟩ := h.row
  intro hsame
  have hlength := congrArg List.length (hsame.symm.trans hrows)
  simp at hlength

end

/-- Where the database takes every write after the failure, the failure is recorded and
the job shows its cause exactly when the table of the job is in `_meta_tables`. -/
theorem failure_recorded_iff (env : Env) (job : Job) (faults : List (Option String))
    (db : TenantSchema) (e : String) (st : TxState TenantSchema)
    (h : FailsInDdl env.pg job.data { store := db, faults := faults, committed := 0 } e st)
    (haccepts : ∀ fault ∈ st.faults, fault = none) :
    FailureRecorded env job faults db e st ↔ db.knows job.data.tableId = true := by
  constructor
  · intro hrecorded
    by_contra hdb
    rw [Bool.not_eq_true] at hdb
    exact hrecorded.not_masked (h.masked haccepts hdb).2
  · intro hdb
    exact h.recorded haccepts hdb

theorem fieldEdit_failure_recorded {env : Env} {w : World} {job : Job}
    {data : FieldEditJobData} {schema : String} {tables : Tables} {Ok : World → Event → Prop}
    (hby : ∀ n t, tables.lookup n = some t → t.createdBy = none)
    (hreach : Reach (step env) Ok (bootstrapped schema tables) w) (hjob : job ∈ w.jobs)
    (hdata : job.data = .fieldEdit data) {faults : List (Option String)} {e : String}
    {st : TxState TenantSchema}
    (h : FailsInDdl env.pg job.data { store := w.db, faults := faults, committed := 0 } e st)
    (haccepts : ∀ fault ∈ st.faults, fault = none) :
    FailureRecorded env job faults w.db e st := by
  obtain ⟨m, hm, hid, -⟩ := (registered_reach hby hreach).catalog.edit_table data
    ⟨job, hjob, hdata⟩
  refine h.recorded haccepts (List.any_eq_true.mpr ⟨m, hm, ?_⟩)
  rw [beq_iff_eq, hid, hdata]
  rfl

/-! ### A create-table job that cannot take its lock -/

def invoicesJob : Job :=
  { id := 1
    data := .createTable
      { jobId := 1, tableId := 0, tableName := "invoices", description := none, fields := [] }
    attemptsMade := 0, state := .waiting, failedReason := none, committed := 0
    tablesAtAcceptance := [] }

def noTables : TenantSchema :=
  { schema := "tenant_acme", tables := ∅, metaTables := [], metaFields := [], metaMigrations := [] }

/-- An earlier attempt has committed the table. -/
def invoicesCommitted : TenantSchema :=
  { noTables with
    metaTables := [{ id := 0, name := "invoices", slug := "invoices", description := none,
                     ownerColumn := some OWNER_COLUMN }] }

def lockTimeout : List (Option String) := [some "canceling statement due to lock timeout"]

/-- Where an attempt stands whose only fault has struck. -/
def afterLockTimeout (db : TenantSchema) : TxState TenantSchema :=
  { store := db, faults := [], committed := 0 }

theorem invoices_fails (db : TenantSchema) :
    FailsInDdl plainEnv.pg invoicesJob.data { store := db, faults := lockTimeout, committed := 0 }
      "canceling statement due to lock timeout" (afterLockTimeout db) :=
  .createTable rfl

theorem failure_recorded_invoices :
    FailureRecorded plainEnv invoicesJob lockTimeout invoicesCommitted
      "canceling statement due to lock timeout" (afterLockTimeout invoicesCommitted) :=
  (failure_recorded_iff plainEnv invoicesJob lockTimeout invoicesCommitted
    "canceling statement due to lock timeout" (afterLockTimeout invoicesCommitted)
    (invoices_fails _) (by simp [afterLockTimeout])).mpr (by decide)

/-- The first attempt's row refers to a table that its rollback has taken away. -/
theorem first_failure_is_masked :
    FailsInDdl plainEnv.pg invoicesJob.data
        { store := noTables, faults := lockTimeout, committed := 0 }
        "canceling statement due to lock timeout" (afterLockTimeout noTables) ∧
      (invoicesJob.run plainEnv lockTimeout noTables).1.failedReason =
        some "insert or update on table \"_meta_migrations\" violates foreign key constraint" ∧
      ¬ FailureRecorded plainEnv invoicesJob lockTimeout noTables
        "canceling statement due to lock timeout" (afterLockTimeout noTables) := by
  have haccepts : ∀ fault ∈ (afterLockTimeout noTables).faults, fault = none := by
    simp [afterLockTimeout]
  obtain ⟨hreason, hrows⟩ := FailsInDdl.masked (invoices_fails noTables) haccepts (by decide)
  refine ⟨invoices_fails noTables, hreason, ?_⟩
  intro hrecorded
  exact hrecorded.not_masked hrows

end Flexi.DynamicTables
