import Flexi.Common.HttpError
import Flexi.DynamicTables.Schema

/-!
# Accepting DDL jobs (dynamic-tables.service.ts)

The synchronous half of a table or field request: identifier checks, the steps
and effects of each edit, and the guardrails in front of the queue. The source
keeps jobs of all tenants in one queue and filters by tenant; here a queue holds
the jobs of one tenant.
-/

namespace Flexi.DynamicTables
open Flexi.Tenancy

structure Config where
  DYNAMIC_TABLES_MAX_TABLES_PER_TENANT : ℕ := 50
  DYNAMIC_TABLES_MAX_FIELDS_PER_TABLE : ℕ := 100
  DYNAMIC_TABLES_MAX_MUTATION_PAYLOAD_BYTES : ℕ := 65536
  DYNAMIC_TABLES_VALIDATION_SCHEMA_CACHE_MAX_ENTRIES : ℕ := 500
  DDL_JOB_RETRY_COUNT : ℕ := 3
  DYNAMIC_TABLES_MAX_PAGE_SIZE : ℕ := 100

def RESERVED_TABLE_PREFIX : String := "_meta_"

def SHADOW_COLUMN_SUFFIX : String := "__shadow"

/-! ### Guards -/

def assertMutationPayloadSize (cfg : Config) (bytes : ℕ) : Except HttpError Unit :=
  if cfg.DYNAMIC_TABLES_MAX_MUTATION_PAYLOAD_BYTES < bytes then
    .error (.badRequest "DYNAMIC_TABLES_MUTATION_PAYLOAD_TOO_LARGE"
      ["Mutation payload must not exceed " ++
        toString cfg.DYNAMIC_TABLES_MAX_MUTATION_PAYLOAD_BYTES ++ " bytes"])
  else .ok ()

def fieldLimitExceeded (cfg : Config) : HttpError :=
  .badRequest "DYNAMIC_TABLES_FIELD_LIMIT_EXCEEDED"
    ["A dynamic table may have at most " ++
      toString cfg.DYNAMIC_TABLES_MAX_FIELDS_PER_TABLE ++ " fields"]

def assertFieldDefinitionCount (cfg : Config) (count : ℕ) : Except HttpError Unit :=
  if cfg.DYNAMIC_TABLES_MAX_FIELDS_PER_TABLE < count then .error (fieldLimitExceeded cfg)
  else .ok ()

def sanitizeUserIdentifier (name : String) : Except HttpError String :=
  match sanitizeIdentifier name with
  | .ok name => .ok name
  | .error message => .error (.validation message)

def sanitizeUserTableName (name : String) : Except HttpError String :=
  if RESERVED_TABLE_PREFIX.toList.isPrefixOf name.toList then
    .error (.validation ("Table name \"" ++ name ++ "\" is reserved (the \"" ++
      RESERVED_TABLE_PREFIX ++ "\" prefix is used by this module's own metadata tables)"))
  else sanitizeUserIdentifier name

def buildShadowColumnName (columnName : String) : Except HttpError String :=
  match sanitizeIdentifier (columnName ++ SHADOW_COLUMN_SUFFIX) with
  | .ok name => .ok name
  | .error _ => .error (.validation
      ("Field \"" ++ columnName ++ "\": the shadow column name generated for this " ++
        "destructive edit (\"" ++ columnName ++ SHADOW_COLUMN_SUFFIX ++
        "\") exceeds Postgres's 63-byte identifier limit. Use a shorter field name."))

def findMetaTableOrThrow (db : TenantSchema) (tableId : Uuid) : Except HttpError MetaTable :=
  match db.metaTables.find? fun m => m.id == tableId with
  | some m => .ok m
  | none => .error (.notFound ("No dynamic table found with id " ++ toString tableId))

/-! ### Field edits -/

def dataTypeRequired (name operation : String) : HttpError :=
  .validation ("Field \"" ++ name ++ "\": dataType is required for " ++ operation ++ " edit")

/-- `buildFieldEditSteps` on the metadata the request reads. -/
def buildFieldEditSteps (db : TenantSchema) (tableId : Uuid) (edit : FieldEditDto) :
    Except HttpError (List FieldEditStep × FieldMetadataEffect) := do
  let columnName ← sanitizeUserIdentifier edit.name
  let required := edit.required.getD false
  match edit.operation with
  | .remove => pure ([.dropColumn columnName], .removeField columnName)
  | .add =>
    match edit.dataType with
    | none => throw (dataTypeRequired edit.name "an \"add\"")
    | some .RELATION =>
      match edit.relatedTableId with
      | none => throw (.validation
          ("Field \"" ++ edit.name ++ "\": relatedTableId is required for a RELATION field"))
      | some relatedTableId =>
        let targetTable ← findMetaTableOrThrow db relatedTableId
        pure ([.addRelationColumn columnName targetTable.name required],
          .upsertField edit.name columnName .RELATION required edit.config (some targetTable.id))
    | some dataType =>
      pure ([.addColumn columnName dataType required edit.config],
        .upsertField edit.name columnName dataType required edit.config none)
  | .modify =>
    match edit.dataType with
    | none => throw (dataTypeRequired edit.name "a \"modify\"")
    | some .RELATION => throw (.validation
        ("Field \"" ++ edit.name ++ "\": changing an existing field's dataType to RELATION via " ++
          "\"modify\" is not supported -- remove and re-add the field instead"))
    | some dataType =>
      let currentField := db.metaFields.find? fun f => f.tableId == tableId && f.slug == columnName
      if currentField.any fun f => f.dataType == .RELATION then
        throw (.validation
          ("Field \"" ++ edit.name ++ "\": changing an existing RELATION field's dataType away " ++
            "from RELATION via \"modify\" is not supported -- remove and re-add the field instead"))
      else
        let shadowColumnName ← buildShadowColumnName columnName
        pure ([.addShadowColumn shadowColumnName dataType required edit.config,
            .backfillColumn columnName shadowColumnName,
            .cutoverColumn columnName shadowColumnName columnName],
          .upsertField edit.name columnName dataType required edit.config none)

def FieldEditStep.isAddition : FieldEditStep → Bool
  | .addColumn .. => true
  | .addRelationColumn .. => true
  | _ => false

def countFieldAdditions (data : FieldEditJobData) : ℕ :=
  (data.steps.filter FieldEditStep.isAddition).length

/-! ### Admission

`pending` is what `getPendingDdlJobs` returns: the waiting, active and delayed
jobs of the tenant. -/

def enqueueCreateTableWithinLimit (cfg : Config) (db : TenantSchema) (pending : List DdlJobData) :
    Except HttpError Unit :=
  let pendingCreates := (pending.filter fun job => match job with
    | .createTable _ => true
    | .fieldEdit _ => false).length
  let maximum := cfg.DYNAMIC_TABLES_MAX_TABLES_PER_TENANT
  if maximum ≤ db.metaTables.length + pendingCreates then
    .error (.badRequest "DYNAMIC_TABLES_TABLE_LIMIT_EXCEEDED"
      ["A tenant may have at most " ++ toString maximum ++ " dynamic tables"])
  else .ok ()

def enqueueFieldEditWithinLimit (cfg : Config) (db : TenantSchema) (pending : List DdlJobData)
    (data : FieldEditJobData) : Except HttpError Unit :=
  let additionsInRequest := countFieldAdditions data
  if additionsInRequest = 0 then .ok ()
  else
    let existing := (db.metaFields.filter fun f => f.tableId == data.tableId).length
    let pendingAdditions := (pending.map fun job => match job with
      | .fieldEdit job => if job.tableId == data.tableId then countFieldAdditions job else 0
      | .createTable _ => 0).sum
    if cfg.DYNAMIC_TABLES_MAX_FIELDS_PER_TABLE < existing + pendingAdditions + additionsInRequest then
      .error (fieldLimitExceeded cfg)
    else .ok ()

/-- `enqueueCreateTable`: the payload of the job that is put on the queue.
`ensureMetaTablesOnce` has nothing left to do in a bootstrapped schema. -/
def enqueueCreateTable (cfg : Config) (db : TenantSchema) (pending : List DdlJobData)
    (jobId tableId : Uuid) (dto : CreateTableDto) : Except HttpError CreateTableJobData := do
  assertMutationPayloadSize cfg dto.bytes
  assertFieldDefinitionCount cfg dto.fields.length
  let tableName ← sanitizeUserTableName dto.name
  let fields ← dto.fields.mapM fun field => do
    let name ← sanitizeUserIdentifier field.name
    pure ({ name := name, dataType := field.dataType, required := field.required.getD false,
            config := field.config } : CreateTableJobField)
  let data : CreateTableJobData :=
    { jobId := jobId, tableId := tableId, tableName := tableName,
      description := dto.description, fields := fields }
  enqueueCreateTableWithinLimit cfg db pending
  pure data

/-- `enqueueFieldEdit`, likewise. -/
def enqueueFieldEdit (cfg : Config) (db : TenantSchema) (pending : List DdlJobData)
    (jobId : Uuid) (tableId : Uuid) (dto : UpdateFieldDto) : Except HttpError FieldEditJobData := do
  assertMutationPayloadSize cfg dto.bytes
  let tableRow ← findMetaTableOrThrow db tableId
  let built ← dto.edits.mapM (buildFieldEditSteps db tableRow.id)
  let data : FieldEditJobData :=
    { jobId := jobId, tableId := tableRow.id, tableName := tableRow.name,
      steps := (built.map Prod.fst).flatten, metadataEffects := built.map Prod.snd }
  enqueueFieldEditWithinLimit cfg db pending data
  pure data

end Flexi.DynamicTables
