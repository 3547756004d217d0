import Flexi.DynamicTables.Rows
import Flexi.DynamicTables.Worker
import Flexi.Library.Reach

/-!
# A tenant's dynamic tables over time

The state of one tenant: its schema, its DDL queue and the validation-schema
cache. Requests and attempts of jobs are the steps; an attempt names the job it
runs, so a run may take the jobs in any order. `Sequential` picks the runs in
which a job is retried until it completes or fails for good before the next one
is touched.
-/

namespace Flexi.DynamicTables
open Flexi.Library

inductive JobState where
  | waiting | delayed | completed | failed
  deriving DecidableEq, Repr

/-- A BullMQ job. `committed` and `tablesAtAcceptance` are history: how many
transactions of its attempts took effect, and which tables the schema held when
the job was accepted. -/
structure Job where
  id : Uuid
  data : DdlJobData
  attemptsMade : ℕ
  state : JobState
  failedReason : Option String
  committed : ℕ
  tablesAtAcceptance : List String

def Job.unfinished (job : Job) : Bool := job.state == .waiting || job.state == .delayed

structure World where
  db : TenantSchema
  jobs : List Job
  cache : ValidationSchemaCache
  nextUuid : Uuid

/-- What stays fixed over a run. -/
structure Env where
  pg : Postgres
  js : JsRuntime
  cfg : Config

inductive Event where
  | createTable (dto : CreateTableDto)
  | fieldEdit (tableId : Uuid) (dto : UpdateFieldDto)
  | attempt (jobId : Uuid) (faults : List (Option String))
  | createRow (tenantUserId : String) (tableId : Uuid) (payload : Json) (bytes : ℕ)
  | updateRow (tableId : Uuid) (rowId : ℤ) (payload : Json) (bytes : ℕ)

/-- `getPendingDdlJobs` -/
def World.pending (w : World) : List DdlJobData := (w.jobs.filter Job.unfinished).map Job.data

/-- `ddlQueue.add` -/
def World.enqueue (w : World) (data : DdlJobData) (uuids : ℕ) : World :=
  { w with
    jobs := w.jobs ++ [{ id := data.jobId, data := data, attemptsMade := 0, state := .waiting,
                         failedReason := none, committed := 0,
                         tablesAtAcceptance := w.db.tables.keys }]
    nextUuid := w.nextUuid + uuids }

/-- One attempt: BullMQ retries a failed one until `attempts` are used up. -/
def Job.run (env : Env) (job : Job) (faults : List (Option String)) (db : TenantSchema) :
    Job × TenantSchema :=
  match (process env.pg job.data).exec { store := db, faults := faults, committed := 0 } with
  | (.ok _, s) =>
    ({ job with
        attemptsMade := job.attemptsMade + 1, state := .completed,
        committed := job.committed + s.committed }, s.store)
  | (.error e, s) =>
    ({ job with
        attemptsMade := job.attemptsMade + 1,
        state := if job.attemptsMade + 1 < env.cfg.DDL_JOB_RETRY_COUNT then .delayed else .failed,
        failedReason := some e,
        committed := job.committed + s.committed }, s.store)

def World.setJob (w : World) (job : Job) (db : TenantSchema) : World :=
  { w with db := db, jobs := w.jobs.map fun k => if k.id == job.id then job else k }

def step (env : Env) (w : World) : Event → Option World
  | .createTable dto =>
    match enqueueCreateTable env.cfg w.db w.pending w.nextUuid (w.nextUuid + 1) dto with
    | .error _ => some w
    | .ok data => some (w.enqueue (.createTable data) 2)
  | .fieldEdit tableId dto =>
    match enqueueFieldEdit env.cfg w.db w.pending w.nextUuid tableId dto with
    | .error _ => some w
    | .ok data =>
      let w' := w.enqueue (.fieldEdit data) 1
      some { w' with cache := invalidateValidationSchema w.cache data.tableId }
  | .attempt jobId faults =>
    match w.jobs.find? fun job => job.id == jobId && job.unfinished with
    | none => none
    | some job =>
      let (job', db') := job.run env faults w.db
      some (w.setJob job' db')
  | .createRow tenantUserId tableId payload bytes =>
    match createRow env.js env.pg env.cfg w.db w.cache tenantUserId tableId payload bytes with
    | (.error _, cache) => some { w with cache := cache }
    | (.ok db, cache) => some { w with db := db, cache := cache }
  | .updateRow tableId rowId payload bytes =>
    match updateRow env.js env.pg env.cfg w.db w.cache tableId rowId payload bytes with
    | (.error _, cache) => some { w with cache := cache }
    | (.ok db, cache) => some { w with db := db, cache := cache }

/-- A bootstrapped tenant: the metadata tables are empty, and `tables` is what
provisioning has put beside them. -/
def bootstrapped (schema : String) (tables : Tables) : World :=
  { db := { schema := schema, tables := tables, metaTables := [], metaFields := [],
            metaMigrations := [] }
    jobs := [], cache := [], nextUuid := 0 }

/-- The job whose turn it is when jobs run one after the other. -/
def World.nextJob (w : World) : Option Job := w.jobs.find? Job.unfinished

/-- Attempts are made on the oldest unfinished job only. -/
def Sequential (w : World) : Event → Prop
  | .attempt jobId _ => ∃ job, w.nextJob = some job ∧ job.id = jobId
  | _ => True

def sequentialCheck (w : World) : Event → Bool
  | .attempt jobId _ => w.nextJob.any fun job => job.id == jobId
  | _ => true

theorem sequential_of_check {w : World} {e : Event} (h : sequentialCheck w e = true) :
    Sequential w e := by
  cases e with
  | attempt jobId faults =>
    obtain ⟨job, hjob, hid⟩ := (Option.any_eq_true _ _).mp h
    exact ⟨job, hjob, by simpa using hid⟩
  | createTable | fieldEdit | createRow | updateRow => trivial

/-- No job is pending or running. -/
def World.Quiet (w : World) : Prop := ∀ job ∈ w.jobs, job.unfinished = false

/-! ### A concrete environment -/

/-- Column input without conversions: a value is taken by the column type it is
written for. -/
def plainInput : PgType → Json → Option Cell
  | .integer, .num (.finite q) => if q.den = 1 then some (.int q.num) else none
  | .decimal, .num (.finite q) => some (.num q)
  | .varchar255, .str s | .text, .str s => some (.str s)
  | .boolean, .bool b => some (.bool b)
  | .jsonb, j => some (.json j)
  | _, _ => none

/-- Default configuration; assignments between equal types and from strings to
text. -/
def plainEnv : Env :=
  { pg := { input := plainInput, hasAssignmentCast := fun s d => s == d || s == .varchar255 && d == .text,
            assignCast := fun _ _ c => some c, currentTimestamp := .instant 0 }
    js := { dateParse := fun _ => none, numberToString := fun _ => "", stringify := fun _ => "" }
    cfg := {} }

def ordersTable : CreateTableDto :=
  { name := "orders", description := none, bytes := 60, fields_ne := by simp
    fields := [{ name := "title", dataType := .STRING, required := none, config := none,
                 not_relation := by simp }] }

def addField (name : String) (dataType : FieldDataType) (required : Bool) : UpdateFieldDto :=
  { edits := [{ operation := .add, name := name, dataType := some dataType,
                required := some required, config := none, relatedTableId := none }]
    bytes := 60, edits_ne := by simp }

def modifyField (name : String) (dataType : FieldDataType) : UpdateFieldDto :=
  { edits := [{ operation := .modify, name := name, dataType := some dataType, required := none,
                config := none, relatedTableId := none }]
    bytes := 60, edits_ne := by simp }

end Flexi.DynamicTables
