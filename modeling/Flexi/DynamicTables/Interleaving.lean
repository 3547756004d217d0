import Flexi.DynamicTables.RowPayload
import Flexi.Library.JobQueue

/-!
# Requests and the worker side by side

The service's requests and the worker's attempts, interleaved at every `await`. The
database and the queue are those of one tenant; the cache is that of one instance, which
also runs the worker. Create-table requests never look at the cache, so it makes no
difference to them on which instance they run.
-/

namespace Flexi.DynamicTables.Interleaving
open Flexi.Library

/-! ### The worker -/

/-- The insert of `recordMigration`. -/
def insertMigration (row : MetaMigration) (db : TenantSchema) : Except String TenantSchema :=
  if row.tableId.any fun id => !db.metaTables.any fun m => m.id == id then
    .error "insert or update on table \"_meta_migrations\" violates foreign key constraint"
  else .ok { db with metaMigrations := db.metaMigrations ++ [row] }

theorem recordMigration_eq (row : MetaMigration) :
    recordMigration row = TxProg.write (insertMigration row) := rfl

/-- A transaction or a single write of an attempt. -/
inductive Task where
  | createTable (data : CreateTableJobData)
  | step (data : FieldEditJobData) (s : FieldEditStep)
  | effects (data : FieldEditJobData)
  | record (row : MetaMigration)

def Task.run (pg : Postgres) : Task → TenantSchema → Except String TenantSchema
  | .createTable data => createTableBody data
  | .step data s => executeStep pg data.tableName s
  | .effects data => fun db => data.metadataEffects.foldlM (applyEffect data.tableId) db
  | .record row => insertMigration row

/-- The row the handler around a failed task writes. -/
def Task.failure : Task → String → Option MetaMigration
  | .createTable data, error => some (createTableMigration data .failed (some error))
  | .step data s, error => some (stepMigration data s .failed (some error))
  | .effects _, _ => none
  | .record row, error => some { row with status := .failed, error := some error }

/-- One attempt of `process`. -/
def tasks : DdlJobData → List Task
  | .createTable data => [.createTable data, .record (createTableMigration data .completed none)]
  | .fieldEdit data =>
    (data.steps.flatMap fun s => [.step data s, .record (stepMigration data s .completed none)]) ++
      [.effects data]

def worker (env : Env) : Workload DdlJobData Task TenantSchema String where
  tasks := tasks
  run := Task.run env.pg
  note := fun task error db =>
    ((task.failure error).bind fun row => (insertMigration row db).toOption).getD db
  attempts := env.cfg.DDL_JOB_RETRY_COUNT

/-! ### Create-table requests -/

/-- A create-table request that has passed its own checks. -/
structure PreparedTable where
  tableName : String
  description : Option String
  fields : List CreateTableJobField

def prepareTable (cfg : Config) (dto : CreateTableDto) : Except HttpError PreparedTable := do
  assertMutationPayloadSize cfg dto.bytes
  assertFieldDefinitionCount cfg dto.fields.length
  let tableName ← sanitizeUserTableName dto.name
  let fields ← dto.fields.mapM fun field => do
    let name ← sanitizeUserIdentifier field.name
    pure ({ name := name, dataType := field.dataType, required := field.required.getD false,
            config := field.config } : CreateTableJobField)
  pure { tableName := tableName, description := dto.description, fields := fields }

def PreparedTable.job (prepared : PreparedTable) (jobId tableId : Uuid) : CreateTableJobData :=
  { jobId := jobId, tableId := tableId, tableName := prepared.tableName,
    description := prepared.description, fields := prepared.fields }

/-- Without anything in between the parts are `enqueueCreateTable`. -/
theorem enqueueCreateTable_eq (cfg : Config) (db : TenantSchema) (pending : List DdlJobData)
    (jobId tableId : Uuid) (dto : CreateTableDto) :
    enqueueCreateTable cfg db pending jobId tableId dto = (do
      let prepared ← prepareTable cfg dto
      enqueueCreateTableWithinLimit cfg db pending
      pure (prepared.job jobId tableId)) := by
  simp only [enqueueCreateTable, prepareTable, bind_assoc, pure_bind, PreparedTable.job]

/-! ### Field-edit requests -/

/-- A field-edit request all of whose edits have been built. -/
structure BuiltEdit where
  tableRow : MetaTable
  built : List (List FieldEditStep × FieldMetadataEffect)

def BuiltEdit.job (edit : BuiltEdit) (jobId : Uuid) : FieldEditJobData :=
  { jobId := jobId, tableId := edit.tableRow.id, tableName := edit.tableRow.name,
    steps := (edit.built.map Prod.fst).flatten, metadataEffects := edit.built.map Prod.snd }

theorem enqueueFieldEdit_eq (cfg : Config) (db : TenantSchema) (pending : List DdlJobData)
    (jobId tableId : Uuid) (dto : UpdateFieldDto) :
    enqueueFieldEdit cfg db pending jobId tableId dto = (do
      assertMutationPayloadSize cfg dto.bytes
      let tableRow ← findMetaTableOrThrow db tableId
      let built ← dto.edits.mapM (buildFieldEditSteps db tableRow.id)
      enqueueFieldEditWithinLimit cfg db pending (BuiltEdit.job ⟨tableRow, built⟩ jobId)
      pure (BuiltEdit.job ⟨tableRow, built⟩ jobId)) := rfl

/-! ### Row requests -/

inductive RowCall where
  | createRow (tenantUserId : String) (payload : Json) (bytes : ℕ)
  | updateRow (rowId : ℤ) (payload : Json) (bytes : ℕ)
  | listRows
  | getRow (rowId : ℤ)

def RowCall.assertSize (cfg : Config) : RowCall → Except HttpError Unit
  | .createRow _ _ bytes | .updateRow _ _ bytes => assertMutationPayloadSize cfg bytes
  | .listRows | .getRow _ => .ok ()

/-- `findRowOrThrow`, which only `updateRow` asks before it has its schema. -/
def RowCall.findRow (db : TenantSchema) (tableRow : MetaTable) : RowCall → Except HttpError Unit
  | .updateRow rowId _ _ =>
    match db.tables.lookup tableRow.name with
    | none => .error .unexpected
    | some t => if t.rows.any (hasId rowId) then .ok () else .error (rowNotFound rowId)
  | .createRow .. | .listRows | .getRow _ => .ok ()

/-- The statement of `updateRow` for a checked payload. -/
def updateRows (pg : Postgres) (db : TenantSchema) (tableName : String) (rowId : ℤ)
    (data : List (String × Json)) : Except HttpError TenantSchema :=
  if data.isEmpty then throw (.badRequest "VALIDATION_ERROR" ["no updatable fields provided"])
  else
    match db.tables.lookup tableName with
    | none => throw .unexpected
    | some t => do
      let rows ← t.rows.mapM fun row =>
        if hasId rowId row then do
          let row ← data.foldlM (writeCell pg t) row
          if relationsResolve db t row (data.map Prod.fst) then pure row
          else throw reshapeForeignKeyViolation
        else pure row
      pure (db.setTable tableName { t with rows := rows })

/-- The statement of a request that has its schema. `listRows` and `getRow` only read. -/
def RowCall.statement (env : Env) (db : TenantSchema) (tableRow : MetaTable)
    (schema : TableValidationSchema) : RowCall → Except HttpError TenantSchema
  | .createRow tenantUserId payload _ =>
    rowPayload env.js schema payload false >>= insertRow env.pg db tableRow.name tenantUserId
  | .updateRow rowId payload _ =>
    rowPayload env.js schema payload true >>= updateRows env.pg db tableRow.name rowId
  | .listRows | .getRow _ => .ok db

/-! ### The state -/

/-- What all of them share. `replaced` is history: a job and a foreign-key column its
cutover has dropped. -/
structure Shared where
  db : TenantSchema
  jobs : List (Queued DdlJobData Task)
  cache : ValidationSchemaCache
  nextUuid : Uuid
  replaced : List (ℕ × String)

/-- `getPendingDdlJobs`: the jobs in the wait, active and delayed lists. -/
def Shared.pending (s : Shared) : List DdlJobData :=
  (s.jobs.filter Queued.unfinished).map Queued.data

/-- `ddlQueue.add` -/
def Shared.add (s : Shared) (data : DdlJobData) (uuids : ℕ) : Shared :=
  { s with
    jobs := s.jobs ++ [{ data := data, attemptsMade := 0, phase := .waiting }]
    nextUuid := s.nextUuid + uuids }

/-- No job of the table is waiting, active or delayed. -/
def Shared.quiet (s : Shared) (tableId : Uuid) : Bool :=
  s.pending.all fun data => data.tableId != tableId

/-- The two reads of an admission, which `Promise.all` sends off together. -/
structure Admission where
  counted : Option TenantSchema
  listed : Option (List DdlJobData)

/-- How far a request has come. `quiet` and `current` are history: whether no job of the
table was pending when the request came in, and the rules its table had in `_meta_fields`
when the request took its schema. -/
inductive Request where
  | createTable (dto : CreateTableDto)
  | creating (prepared : PreparedTable) (reads : Admission)
  | created
  | fieldEdit (tableId : Uuid) (dto : UpdateFieldDto)
  | building (edit : BuiltEdit) (rest : List FieldEditDto)
  | admitting (edit : BuiltEdit) (reads : Admission)
  | edited (tableId : Uuid) (locked : Bool)
  | row (call : RowCall) (tableId : Uuid) (quiet : Bool)
  | finding (call : RowCall) (tableRow : MetaTable) (quiet : Bool)
  | resolving (call : RowCall) (tableRow : MetaTable) (quiet : Bool)
  | fetching (call : RowCall) (tableRow : MetaTable) (quiet : Bool)
  | fetched (call : RowCall) (tableRow : MetaTable) (quiet : Bool) (schema : TableValidationSchema)
  | serving (call : RowCall) (tableRow : MetaTable) (quiet : Bool)
      (schema current : TableValidationSchema)
  | done

/-- The resource of an advisory lock. -/
inductive Guardrail where
  | tables
  | fields (tableId : Uuid)
  deriving DecidableEq

/-- The advisory lock of the request's transaction. -/
def Request.holds : Request → Option Guardrail
  | .creating _ _ | .created => some .tables
  | .admitting edit _ => some (.fields edit.tableRow.id)
  | .edited tableId true => some (.fields tableId)
  | _ => none

/-- What a client asks for. -/
inductive Call where
  | createTable (dto : CreateTableDto)
  | fieldEdit (tableId : Uuid) (dto : UpdateFieldDto)
  | row (call : RowCall) (tableId : Uuid)

def Call.request (s : Shared) : Call → Request
  | .createTable dto => .createTable dto
  | .fieldEdit tableId dto => .fieldEdit tableId dto
  | .row call tableId => .row call tableId (s.quiet tableId)

/-! ### The steps of a request -/

/-- A request goes on with an answer, or ends with an error. -/
def proceed {α : Type} (answer : Except HttpError α) (go : α → Request) : Request :=
  match answer with
  | .ok a => go a
  | .error _ => .done

/-- The continuation of a request up to its next `await`; `free` are the locks nobody
holds. Not there are the reads of an admission, which come in either order. -/
def next (env : Env) (free : Guardrail → Bool) (s : Shared) : Request → Option (Request × Shared)
  | .createTable dto =>
    match prepareTable env.cfg dto with
    | .error _ => some (.done, s)
    | .ok prepared => if free .tables then some (.creating prepared ⟨none, none⟩, s) else none
  | .creating prepared ⟨some counted, some listed⟩ =>
    match enqueueCreateTableWithinLimit env.cfg counted listed with
    | .error _ => some (.done, s)
    | .ok () => some (.created, s.add (.createTable (prepared.job s.nextUuid (s.nextUuid + 1))) 2)
  | .creating _ _ => none
  | .created => some (.done, s)
  | .fieldEdit tableId dto =>
    some (proceed
      (do
        assertMutationPayloadSize env.cfg dto.bytes
        findMetaTableOrThrow s.db tableId)
      fun tableRow => .building ⟨tableRow, []⟩ dto.edits, s)
  | .building edit (dto :: rest) =>
    some (proceed (buildFieldEditSteps s.db edit.tableRow.id dto)
      fun b => .building { edit with built := edit.built ++ [b] } rest, s)
  | .building edit [] =>
    if countFieldAdditions (edit.job s.nextUuid) = 0 then
      some (.edited edit.tableRow.id false, s.add (.fieldEdit (edit.job s.nextUuid)) 1)
    else if free (.fields edit.tableRow.id) then some (.admitting edit ⟨none, none⟩, s)
    else none
  | .admitting edit ⟨some counted, some listed⟩ =>
    match enqueueFieldEditWithinLimit env.cfg counted listed (edit.job s.nextUuid) with
    | .error _ => some (.done, s)
    | .ok () => some (.edited edit.tableRow.id true, s.add (.fieldEdit (edit.job s.nextUuid)) 1)
  | .admitting _ _ => none
  | .edited tableId true => some (.edited tableId false, s)
  | .edited tableId false =>
      some (.done, { s with cache := invalidateValidationSchema s.cache tableId })
  | .row call tableId quiet =>
    some (proceed
      (do
        call.assertSize env.cfg
        findMetaTableOrThrow s.db tableId)
      fun tableRow => .finding call tableRow quiet, s)
  | .finding call tableRow quiet =>
    some (proceed (call.findRow s.db tableRow) fun _ => .resolving call tableRow quiet, s)
  | .resolving call tableRow quiet =>
    match s.cache.find? fun kv => kv.1 == tableRow.id with
    | some kv =>
      some (.serving call tableRow quiet kv.2 (buildValidationSchema s.db tableRow.id),
        { s with cache := invalidateValidationSchema s.cache tableRow.id ++ [kv] })
    | none => some (.fetching call tableRow quiet, s)
  | .fetching call tableRow quiet =>
    some (.fetched call tableRow quiet (buildValidationSchema s.db tableRow.id), s)
  | .fetched call tableRow quiet schema =>
    let maximum := env.cfg.DYNAMIC_TABLES_VALIDATION_SCHEMA_CACHE_MAX_ENTRIES
    let cache := writeValidationSchemaCache maximum s.cache tableRow.id schema
    some (.serving call tableRow quiet schema schema, { s with cache := cache })
  | .serving call tableRow _ schema _ =>
    match call.statement env s.db tableRow schema with
    | .error _ => some (.done, s)
    | .ok db => some (.done, { s with db := db })
  | .done => none

/-- The count of an admission is taken. -/
def countRows (s : Shared) : Request → Option Request
  | .creating prepared ⟨none, listed⟩ => some (.creating prepared ⟨some s.db, listed⟩)
  | .admitting edit ⟨none, listed⟩ => some (.admitting edit ⟨some s.db, listed⟩)
  | _ => none

/-- The job lists are read for an admission. -/
def listJobs (s : Shared) : Request → Option Request
  | .creating prepared ⟨counted, none⟩ => some (.creating prepared ⟨counted, some s.pending⟩)
  | .admitting edit ⟨counted, none⟩ => some (.admitting edit ⟨counted, some s.pending⟩)
  | _ => none

/-! ### The system -/

structure Backend where
  shared : Shared
  requests : List Request

/-- `abort` is an `await` that rejects. -/
inductive Move where
  | receive (call : Call)
  | next (i : ℕ)
  | count (i : ℕ)
  | list (i : ℕ)
  | abort (i : ℕ)
  | work (w : Work String)

def Backend.free (b : Backend) (lock : Guardrail) : Bool := b.requests.all fun r =>
    r.holds != some lock

def isForeignKey (db : TenantSchema) (table column : String) : Bool :=
  ((db.tables.lookup table).bind fun t => t.columns.lookup column).any fun d => d.references.isSome

/-- The foreign-key columns that the next task of a job replaces. -/
def replacedBy (db : TenantSchema) (i : ℕ) : Option Task → List (ℕ × String)
  | some (.step data (.cutoverColumn source _ _)) =>
    if isForeignKey db data.tableName source then [(i, source)] else []
  | _ => []

/-- The columns a step of the worker replaces. -/
def replacements (s : Shared) : Work String → List (ℕ × String)
  | .commit i => replacedBy s.db i ((s.jobs[i]?.bind Queued.head).map Prod.fst)
  | .take _ | .fail _ _ _ | .complete _ => []

def step (env : Env) (b : Backend) : Move → Option Backend
  | .receive call => some { b with requests := b.requests ++ [call.request b.shared] }
  | .next i => do
    let r ← b.requests[i]?
    let (r', s) ← next env b.free b.shared r
    some { shared := s, requests := b.requests.set i r' }
  | .count i => do
    let r ← b.requests[i]?
    let r' ← countRows b.shared r
    some { b with requests := b.requests.set i r' }
  | .list i => do
    let r ← b.requests[i]?
    let r' ← listJobs b.shared r
    some { b with requests := b.requests.set i r' }
  | .abort i => do
    let _ ← b.requests[i]?
    some { b with requests := b.requests.set i .done }
  | .work w => do
    let (jobs, db) ← work (worker env) b.shared.jobs b.shared.db w
    let replaced := b.shared.replaced ++ replacements b.shared w
    some { b with shared := { b.shared with db := db, jobs := jobs, replaced := replaced } }

/-- A tenant whose schema has just been provisioned. -/
def started (schema : String) (tables : Tables) : Backend :=
  { shared :=
      { db := (bootstrapped schema tables).db, jobs := [], cache := [], nextUuid := 0, replaced := [] }
    requests := [] }

/-! ### What a step does -/

theorem step_next {env : Env} {b : Backend} {i : ℕ} {r r' : Request} {s : Shared}
    (hr : b.requests[i]? = some r) (h : next env b.free b.shared r = some (r', s)) :
    step env b (.next i) = some { shared := s, requests := b.requests.set i r' } := by
  show (b.requests[i]?.bind fun r => (next env b.free b.shared r).bind _) = _
  rw [hr, Option.bind_some, h]
  rfl

/-! ### The queue -/

theorem pending_append (s : Shared) (data : DdlJobData) (n : ℕ) :
    (s.add data n).pending = s.pending ++ [data] := by
  simp only [Shared.pending, Shared.add, List.filter_append, List.map_append]
  rfl

theorem aligned_add {env : Env} {s : Shared} (h : ∀ job ∈ s.jobs, job.Aligned (worker env))
    (data : DdlJobData) (n : ℕ) :
    ∀ job ∈ (s.add data n).jobs, job.Aligned (worker env) := by
  intro job hjob
  rcases List.mem_append.mp hjob with hjob | hjob
  · exact h job hjob
  · rw [List.mem_singleton.mp hjob]
    intro rest hphase
    cases hphase

theorem mem_set_request {requests : List Request} {i : ℕ} {r k : Request}
    (h : k ∈ requests.set i r) :
    k = r ∨ k ∈ requests :=
  (List.mem_or_eq_of_mem_set h).symm

/-- What a continuation can do. -/
inductive Advanced (env : Env) (free : Guardrail → Bool) (s : Shared) : Request → Request →
    Shared → Prop
  | ended {r : Request} : Advanced env free s r .done s
  | prepared {dto : CreateTableDto} {prepared : PreparedTable} :
      prepareTable env.cfg dto = .ok prepared →
      free .tables = true → Advanced env free s (.createTable dto)
          (.creating prepared ⟨none, none⟩) s
  | tableQueued {prepared : PreparedTable} {counted : TenantSchema} {listed : List DdlJobData} :
      enqueueCreateTableWithinLimit env.cfg counted listed = .ok () →
      Advanced env free s (.creating prepared ⟨some counted, some listed⟩) .created
        (s.add (.createTable (prepared.job s.nextUuid (s.nextUuid + 1))) 2)
  | tableFound {tableId : Uuid} {dto : UpdateFieldDto} {tableRow : MetaTable} :
      findMetaTableOrThrow s.db tableId = .ok tableRow →
      Advanced env free s (.fieldEdit tableId dto) (.building ⟨tableRow, []⟩ dto.edits) s
  | built {edit : BuiltEdit} {dto : FieldEditDto} {rest : List FieldEditDto}
      {b : List FieldEditStep × FieldMetadataEffect} :
      buildFieldEditSteps s.db edit.tableRow.id dto = .ok b →
      Advanced env free s (.building edit (dto :: rest))
          (.building { edit with built := edit.built ++ [b] } rest) s
  | editQueued {edit : BuiltEdit} : countFieldAdditions (edit.job s.nextUuid) = 0 →
      Advanced env free s (.building edit []) (.edited edit.tableRow.id false)
        (s.add (.fieldEdit (edit.job s.nextUuid)) 1)
  | locked {edit : BuiltEdit} : countFieldAdditions (edit.job s.nextUuid) ≠ 0 →
      free (.fields edit.tableRow.id) = true →
      Advanced env free s (.building edit []) (.admitting edit ⟨none, none⟩) s
  | editAdmitted {edit : BuiltEdit} {counted : TenantSchema} {listed : List DdlJobData} :
      enqueueFieldEditWithinLimit env.cfg counted listed (edit.job s.nextUuid) = .ok () →
      Advanced env free s (.admitting edit ⟨some counted, some listed⟩)
          (.edited edit.tableRow.id true)
        (s.add (.fieldEdit (edit.job s.nextUuid)) 1)
  | unlocked {tableId : Uuid} : Advanced env free s (.edited tableId true) (.edited tableId false) s
  | invalidated {tableId : Uuid} : Advanced env free s (.edited tableId false) .done
      { s with cache := invalidateValidationSchema s.cache tableId }
  | rowTable {call : RowCall} {tableId : Uuid} {quiet : Bool} {tableRow : MetaTable} :
      findMetaTableOrThrow s.db tableId = .ok tableRow →
      Advanced env free s (.row call tableId quiet) (.finding call tableRow quiet) s
  | rowFound {call : RowCall} {tableRow : MetaTable} {quiet : Bool} :
      Advanced env free s (.finding call tableRow quiet) (.resolving call tableRow quiet) s
  | hit {call : RowCall} {tableRow : MetaTable} {quiet : Bool} {kv : Uuid × TableValidationSchema} :
      kv ∈ s.cache → kv.1 = tableRow.id →
      Advanced env free s (.resolving call tableRow quiet)
        (.serving call tableRow quiet kv.2 (buildValidationSchema s.db tableRow.id))
        { s with cache := invalidateValidationSchema s.cache tableRow.id ++ [kv] }
  | missed {call : RowCall} {tableRow : MetaTable} {quiet : Bool} :
      Advanced env free s (.resolving call tableRow quiet) (.fetching call tableRow quiet) s
  | fetched {call : RowCall} {tableRow : MetaTable} {quiet : Bool} :
      Advanced env free s (.fetching call tableRow quiet)
        (.fetched call tableRow quiet (buildValidationSchema s.db tableRow.id)) s
  | cached {call : RowCall} {tableRow : MetaTable} {quiet : Bool} {schema : TableValidationSchema}
      (maximum : ℕ) :
      Advanced env free s (.fetched call tableRow quiet schema)
          (.serving call tableRow quiet schema schema)
        { s with cache := writeValidationSchemaCache maximum s.cache tableRow.id schema }
  | served {call : RowCall} {tableRow : MetaTable} {quiet : Bool}
      {schema current : TableValidationSchema}
      {db : TenantSchema} : call.statement env s.db tableRow schema = .ok db →
      Advanced env free s (.serving call tableRow quiet schema current) .done { s with db := db }

section Advance

variable {env : Env} {free : Guardrail → Bool} {s s' : Shared} {r r' : Request}

theorem Advanced.of_proceed {α : Type} {answer : Except HttpError α} {go : α → Request}
    (h : ∀ a, answer = .ok a → Advanced env free s r (go a) s) :
    Advanced env free s r (proceed answer go) s := by
  cases answer with
  | error e => exact .ended
  | ok a => exact h a rfl

theorem advanced_of_next (h : next env free s r = some (r', s')) : Advanced env free s r r' s' := by
  cases r with
  | createTable dto =>
    simp only [next] at h
    split at h
    · cases h
      exact .ended
    · rename_i prepared hprepared
      split at h
      · rename_i hfree
        cases h
        exact .prepared hprepared hfree
      · cases h
  | creating prepared reads =>
    rcases reads with ⟨_ | counted, _ | listed⟩
    · cases h
    · cases h
    · cases h
    · simp only [next] at h
      split at h
      · cases h
        exact .ended
      · rename_i hlimit
        cases h
        exact .tableQueued hlimit
  | created =>
    cases h
    exact .ended
  | fieldEdit tableId dto =>
    cases h
    refine .of_proceed fun tableRow hrow => .tableFound ?_
    obtain ⟨-, -, hrow⟩ := except_bind_ok.mp hrow
    exact hrow
  | building edit rest =>
    cases rest with
    | cons dto rest =>
      cases h
      exact .of_proceed fun b hb => .built hb
    | nil =>
      simp only [next] at h
      split at h
      · rename_i hnone
        cases h
        exact .editQueued hnone
      · rename_i hsome
        split at h
        · rename_i hfree
          cases h
          exact .locked hsome hfree
        · cases h
  | admitting edit reads =>
    rcases reads with ⟨_ | counted, _ | listed⟩
    · cases h
    · cases h
    · cases h
    · simp only [next] at h
      split at h
      · cases h
        exact .ended
      · rename_i hlimit
        cases h
        exact .editAdmitted hlimit
  | edited tableId locked =>
    cases locked with
    | true =>
      cases h
      exact .unlocked
    | false =>
      cases h
      exact .invalidated
  | row call tableId quiet =>
    cases h
    refine .of_proceed fun tableRow hrow => .rowTable ?_
    obtain ⟨-, -, hrow⟩ := except_bind_ok.mp hrow
    exact hrow
  | finding call tableRow quiet =>
    cases h
    exact .of_proceed fun _ _ => .rowFound
  | resolving call tableRow quiet =>
    simp only [next] at h
    split at h
    · rename_i kv hfind
      cases h
      exact .hit (List.mem_of_find?_eq_some hfind) (by simpa using List.find?_some hfind)
    · cases h
      exact .missed
  | fetching call tableRow quiet =>
    cases h
    exact .fetched
  | fetched call tableRow quiet schema =>
    cases h
    exact .cached _
  | serving call tableRow quiet schema current =>
    simp only [next] at h
    split at h
    · cases h
      exact .ended
    · rename_i db hstatement
      cases h
      exact .served hstatement
  | done => cases h

end Advance

/-- One of the five kinds of step. -/
inductive Stepped (env : Env) (b : Backend) : Move → Backend → Prop
  | receive (call : Call) :
      Stepped env b (.receive call) { b with requests := b.requests ++ [call.request b.shared] }
  | next {i : ℕ} {r r' : Request} {s : Shared} : b.requests[i]? = some r →
      Advanced env b.free b.shared r r' s →
      Stepped env b (.next i) { shared := s, requests := b.requests.set i r' }
  | count {i : ℕ} {r r' : Request} : b.requests[i]? = some r → countRows b.shared r = some r' →
      Stepped env b (.count i) { b with requests := b.requests.set i r' }
  | list {i : ℕ} {r r' : Request} : b.requests[i]? = some r → listJobs b.shared r = some r' →
      Stepped env b (.list i) { b with requests := b.requests.set i r' }
  | abort {i : ℕ} {r : Request} : b.requests[i]? = some r →
      Stepped env b (.abort i) { b with requests := b.requests.set i .done }
  | work {w : Work String} {i : ℕ} {job job' : Queued DdlJobData Task} {db : TenantSchema} :
      b.shared.jobs[i]? = some job → Worked (worker env) b.shared.db i job w job' db →
      Stepped env b (.work w) { b with shared := { b.shared with
        db := db, jobs := b.shared.jobs.set i job'
        replaced := b.shared.replaced ++ replacements b.shared w } }

theorem stepped_of_step {env : Env} {b b' : Backend} {m : Move} (h : step env b m = some b') :
    Stepped env b m b' := by
  cases m with
  | receive call =>
    cases h
    exact .receive call
  | next i =>
    obtain ⟨r, hr, h⟩ := Option.bind_eq_some_iff.mp h
    obtain ⟨⟨r', s⟩, hnext, h⟩ := Option.bind_eq_some_iff.mp h
    cases h
    exact .next hr (advanced_of_next hnext)
  | count i =>
    obtain ⟨r, hr, h⟩ := Option.bind_eq_some_iff.mp h
    obtain ⟨r', hcount, h⟩ := Option.bind_eq_some_iff.mp h
    cases h
    exact .count hr hcount
  | list i =>
    obtain ⟨r, hr, h⟩ := Option.bind_eq_some_iff.mp h
    obtain ⟨r', hlist, h⟩ := Option.bind_eq_some_iff.mp h
    cases h
    exact .list hr hlist
  | abort i =>
    obtain ⟨r, hr, h⟩ := Option.bind_eq_some_iff.mp h
    cases h
    exact .abort hr
  | work w =>
    obtain ⟨⟨jobs, db⟩, hwork, h⟩ := Option.bind_eq_some_iff.mp h
    cases h
    obtain ⟨i, job, job', hjob, rfl, hworked⟩ := worked_of_work hwork
    exact .work hjob hworked

/-! ### Advisory locks -/

/-- No two requests hold one lock. -/
def Exclusive (b : Backend) : Prop :=
  ∀ (lock : Guardrail) (i j : ℕ) (r k : Request), b.requests[i]? = some r →
      b.requests[j]? = some k →
    r.holds = some lock → k.holds = some lock → i = j

/-- A request comes by a lock only while nobody holds it. -/
theorem Advanced.holds {env : Env} {free : Guardrail → Bool} {s s' : Shared} {r r' : Request}
    (h : Advanced env free s r r' s') {lock : Guardrail} (hr : r'.holds = some lock) :
    r.holds = some lock ∨ free lock = true := by
  cases h with
  | prepared _ hfree | locked _ hfree =>
    cases hr
    exact .inr hfree
  | tableQueued | editAdmitted => exact .inl hr
  | ended | tableFound | built | editQueued | unlocked | invalidated | rowTable | rowFound | hit
      | missed
  | fetched | cached | served => cases hr

theorem holds_of_countRows {s : Shared} {r r' : Request} (h : countRows s r = some r') :
    r'.holds = r.holds := by
  unfold countRows at h
  split at h <;> cases h <;> rfl

theorem holds_of_listJobs {s : Shared} {r r' : Request} (h : listJobs s r = some r') :
    r'.holds = r.holds := by
  unfold listJobs at h
  split at h <;> cases h <;> rfl

theorem not_free_of_holds {b : Backend} {j : ℕ} {k : Request} {lock : Guardrail}
    (hk : b.requests[j]? = some k) (h : k.holds = some lock) : b.free lock = false := by
  rw [Backend.free, List.all_eq_false]
  exact ⟨k, List.mem_of_getElem? hk, by simp [h]⟩

namespace Exclusive

variable {env : Env} {b b' : Backend}

theorem set (h : Exclusive b) {i : ℕ} {r r' : Request} {s : Shared} (hr : b.requests[i]? = some r)
    (hlock : ∀ lock, r'.holds = some lock → r.holds = some lock ∨ b.free lock = true) :
    Exclusive { shared := s, requests := b.requests.set i r' } := by
  have hlt : i < b.requests.length := (List.getElem?_eq_some_iff.mp hr).1
  have hself : (b.requests.set i r')[i]? = some r' := List.getElem?_set_self hlt
  have hother {j : ℕ} (hj : i ≠ j) : (b.requests.set i r')[j]? = b.requests[j]? :=
    List.getElem?_set_ne hj
  -- nobody else holds what the changed request holds
  have halone {lock : Guardrail} {j : ℕ} {k : Request} (hk : b.requests[j]? = some k)
      (hkl : k.holds = some lock) (hrl : r'.holds = some lock) : i = j := by
    rcases hlock lock hrl with hrl | hfree
    · exact h lock i j r k hr hk hrl hkl
    · rw [not_free_of_holds hk hkl] at hfree
      cases hfree
  intro lock j₁ j₂ k₁ k₂ h₁ h₂ hl₁ hl₂
  dsimp only at h₁ h₂
  by_cases hj₁ : i = j₁
  · subst hj₁
    by_cases hj₂ : i = j₂
    · exact hj₂
    · rw [hself] at h₁
      rw [hother hj₂] at h₂
      cases h₁
      exact halone h₂ hl₂ hl₁
  · rw [hother hj₁] at h₁
    by_cases hj₂ : i = j₂
    · subst hj₂
      rw [hself] at h₂
      cases h₂
      exact (halone h₁ hl₁ hl₂).symm
    · rw [hother hj₂] at h₂
      exact h lock j₁ j₂ k₁ k₂ h₁ h₂ hl₁ hl₂

theorem step (h : Exclusive b) {m : Move} (hs : Stepped env b m b') : Exclusive b' := by
  cases hs with
  | receive call =>
    have hnone : (call.request b.shared).holds = none := by cases call <;> rfl
    have hold {j : ℕ} {k : Request} {lock : Guardrail}
        (hk : (b.requests ++ [call.request b.shared])[j]? = some k) (hkl : k.holds = some lock) :
        b.requests[j]? = some k := by
      by_cases hj : j < b.requests.length
      · rw [List.getElem?_append_left hj] at hk
        exact hk
      · rw [List.getElem?_append_right (by omega)] at hk
        have hmem := List.mem_of_getElem? hk
        rw [List.mem_singleton] at hmem
        rw [hmem, hnone] at hkl
        cases hkl
    intro lock i j r k hr hk hrl hkl
    exact h lock i j r k (hold hr hrl) (hold hk hkl) hrl hkl
  | next hr hnext => exact h.set hr fun _ => hnext.holds
  | count hr hcount => exact h.set hr fun _ hl => .inl (holds_of_countRows hcount ▸ hl)
  | list hr hlist => exact h.set hr fun _ hl => .inl (holds_of_listJobs hlist ▸ hl)
  | abort hr => exact h.set hr fun _ hl => by cases hl
  | work => exact h

end Exclusive

theorem exclusive_reach {env : Env} {Ok : Backend → Move → Prop} {schema : String} {tables : Tables}
    {b : Backend} (h : Reach (step env) Ok (started schema tables) b) : Exclusive b :=
  h.invariant (fun _ _ _ _ _ hr => by cases hr) fun _ _ _ _ he _ hs => he.step (stepped_of_step hs)

/-! ### Undisturbed runs -/

/-- The request at `i` creates a table, and nothing happens in between. -/
def createRun (i : ℕ) (dto : CreateTableDto) : List Move :=
  [.receive (.createTable dto), .next i, .count i, .list i, .next i, .next i]

/-- The request at `i` adds one field. -/
def addRun (i : ℕ) (tableId : Uuid) (dto : UpdateFieldDto) : List Move :=
  [.receive (.fieldEdit tableId dto), .next i, .next i, .next i, .count i, .list i, .next i,
      .next i, .next i]

/-- The job at `i` completes after `n` writes. -/
def workRun (i n : ℕ) : List Move :=
  .work (.take i) :: List.replicate n (.work (.commit i)) ++ [.work (.complete i)]

end Flexi.DynamicTables.Interleaving
