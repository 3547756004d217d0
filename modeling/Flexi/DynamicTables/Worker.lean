import Flexi.DynamicTables.Schema
import Flexi.Library.Transactions

/-!
# The DDL worker (ddl-worker.ts)

One attempt of a job is a program of transactions on the tenant schema. The
lock and statement timeouts of `setDdlTimeouts` show only as failing
transactions.
-/

namespace Flexi.DynamicTables
open Flexi.Library

abbrev DdlProg := TxProg TenantSchema Unit

/-! ### Columns -/

def addTypedColumn : FieldDataType → Except String PgType
  | .STRING | .EMAIL | .URL | .SELECT => .ok .varchar255
  | .TEXT => .ok .text
  | .NUMBER => .ok .decimal
  | .BOOLEAN => .ok .boolean
  | .DATE => .ok .date
  | .DATETIME => .ok .timestamptz
  | .JSON => .ok .jsonb
  | .RELATION =>
    .error "RELATION fields must go through the add-relation-column step, not addTypedColumn()"

/-- A column of a typed field, `notNullable()` when it is required. -/
def typedColumn (type : PgType) (required : Bool) : ColumnDef :=
  { type := type, nullable := !required, default := none, primary := false, references := none }

/-- The name knex gives to the constraint of `.references()`, in lower case; Postgres
cuts it like every identifier. -/
def foreignKeyName (tableName columnName : String) : String :=
  truncateIdentifier
    (String.ofList ((tableName ++ "_" ++ columnName ++ "_foreign").toList.map Char.toLower))

/-- `addRelationColumn`: an integer foreign key, `ON DELETE SET NULL`. -/
def addRelationColumn (qualifiedTargetTable : String) (required : Bool) : ColumnDef :=
  { type := .integer, nullable := !required, default := none, primary := false,
    references := some qualifiedTargetTable }

/-- `table.increments('id').primary()` -/
def idColumn : ColumnDef :=
  { type := .integer, nullable := false, default := some .nextval, primary := true,
    references := none }

/-- `table.string(OWNER_COLUMN).notNullable()` -/
def ownerColumn : ColumnDef := typedColumn .varchar255 true

/-- Either column of `table.timestamps(true, true)`. -/
def timestampColumn : ColumnDef :=
  { type := .timestamptz, nullable := false, default := some .now, primary := false,
    references := none }

/-- The columns of a `createTable` call, in the order they are built. -/
def createTableColumns (fields : List CreateTableJobField) :
    Except String (List (Σ _ : String, ColumnDef)) := do
  let declared ← fields.mapM fun field => do
    let type ← addTypedColumn field.dataType
    pure (⟨field.name, typedColumn type field.required⟩ : Σ _ : String, ColumnDef)
  pure ([⟨"id", idColumn⟩, ⟨OWNER_COLUMN, ownerColumn⟩] ++ declared ++
    [⟨"created_at", timestampColumn⟩, ⟨"updated_at", timestampColumn⟩])

/-! ### Metadata rows -/

/-- `upsertMetaTable`; `_meta_tables.slug` is unique. -/
def upsertMetaTable (tableId : Uuid) (name : String) (description : Option String)
    (db : TenantSchema) : Except String TenantSchema :=
  if db.metaTables.any fun m => m.slug == name && m.id != tableId then
    .error "duplicate key value violates unique constraint \"_meta_tables_slug_unique\""
  else
    let row : MetaTable :=
      { id := tableId, name := name, slug := name, description := description,
        ownerColumn := some OWNER_COLUMN }
    if db.metaTables.any fun m => m.id == tableId then
      .ok { db with metaTables := db.metaTables.map fun m => if m.id == tableId then row else m }
    else .ok { db with metaTables := db.metaTables ++ [row] }

/-- `upsertMetaField`; both table ids of a row are foreign keys. -/
def upsertMetaField (row : MetaField) (db : TenantSchema) : Except String TenantSchema :=
  let known := fun id => db.metaTables.any fun m => m.id == id
  if !known row.tableId || row.relationTargetTableId.any fun id => !known id then
    .error "insert or update on table \"_meta_fields\" violates foreign key constraint"
  else if db.metaFields.any fun f => f.tableId == row.tableId && f.slug == row.slug then
    .ok { db with
      metaFields := db.metaFields.map fun f =>
        if f.tableId == row.tableId && f.slug == row.slug then row else f }
  else .ok { db with metaFields := db.metaFields ++ [row] }

def removeMetaField (tableId : Uuid) (slug : String) (db : TenantSchema) : TenantSchema :=
  { db with metaFields := db.metaFields.filter fun f => !(f.tableId == tableId && f.slug == slug) }

/-- `recordMigration`: one insert outside any transaction, with a foreign key on
the table id. -/
def recordMigration (row : MetaMigration) : DdlProg :=
  TxProg.write fun db =>
    if row.tableId.any fun id => !db.metaTables.any fun m => m.id == id then
      .error "insert or update on table \"_meta_migrations\" violates foreign key constraint"
    else .ok { db with metaMigrations := db.metaMigrations ++ [row] }

/-! ### Create table -/

def createTableBody (data : CreateTableJobData) (db : TenantSchema) : Except String TenantSchema := do
  let db ← if db.hasTable data.tableName then pure db
    else do
      let cols ← createTableColumns data.fields
      db.createTable data.tableName cols data.jobId
  let db ← upsertMetaTable data.tableId data.tableName data.description db
  data.fields.foldlM (fun db field =>
    upsertMetaField
      { tableId := data.tableId, name := field.name, slug := field.name,
        dataType := field.dataType, required := field.required, config := field.config,
        relationTargetTableId := none } db) db

def createTableMigration (data : CreateTableJobData) (status : MigrationStatus)
    (error : Option String) : MetaMigration :=
  { tableId := some data.tableId, jobId := data.jobId, operation := "create-table",
    statement := "CREATE TABLE \"" ++ data.tableName ++ "\" (..." ++
      toString data.fields.length ++ " field(s))",
    status := status, error := error }

def processCreateTable (data : CreateTableJobData) : DdlProg :=
  tryCatch
    (do
      TxProg.transaction (createTableBody data)
      recordMigration (createTableMigration data .completed none))
    fun error => do
      recordMigration (createTableMigration data .failed (some error))
      throw error

/-! ### Field edits -/

/-- `executeStep`. Every branch that creates or drops looks first. -/
def executeStep (pg : Postgres) (tableName : String) (step : FieldEditStep) (db : TenantSchema) :
    Except String TenantSchema :=
  match step with
  | .addColumn columnName dataType required _ =>
    if db.hasColumn tableName columnName then pure db
    else do
      let type ← addTypedColumn dataType
      db.addColumn tableName columnName (typedColumn type required) none
  | .addRelationColumn columnName targetTableName required =>
    if db.hasColumn tableName columnName then pure db
    else
      db.addColumn tableName columnName
        (addRelationColumn (db.schema ++ "." ++ targetTableName) required)
        (some ⟨foreignKeyName tableName columnName, targetTableName⟩)
  | .dropColumn columnName =>
    if !db.hasColumn tableName columnName then pure db
    else db.dropColumn tableName columnName
  | .addShadowColumn shadowColumnName dataType _ _ =>
    if db.hasColumn tableName shadowColumnName then pure db
    else do
      let type ← addTypedColumn dataType
      db.addColumn tableName shadowColumnName (typedColumn type false) none
  | .backfillColumn sourceColumnName shadowColumnName =>
    db.copyColumn pg tableName sourceColumnName shadowColumnName
  | .cutoverColumn sourceColumnName shadowColumnName finalColumnName => do
    let sourceExists := db.hasColumn tableName sourceColumnName
    let shadowExists := db.hasColumn tableName shadowColumnName
    if !sourceExists && !shadowExists then pure db
    else do
      let db ← if sourceExists then db.dropColumn tableName sourceColumnName else pure db
      if shadowExists then db.renameColumn tableName shadowColumnName finalColumnName else pure db

/-- The step's kind, which `_meta_migrations.operation` records. -/
def FieldEditStep.kind : FieldEditStep → String
  | .addColumn .. => "add-column"
  | .dropColumn _ => "drop-column"
  | .addShadowColumn .. => "add-shadow-column"
  | .backfillColumn .. => "backfill-column"
  | .cutoverColumn .. => "cutover-column"
  | .addRelationColumn .. => "add-relation-column"

def describeStep (tableName : String) : FieldEditStep → String
  | .addColumn c _ _ _ => "ADD COLUMN \"" ++ c ++ "\" on \"" ++ tableName ++ "\""
  | .addRelationColumn c target _ =>
    "ADD COLUMN \"" ++ c ++ "\" (FK -> \"" ++ target ++ "\", ON DELETE SET NULL) on \"" ++
      tableName ++ "\""
  | .dropColumn c => "DROP COLUMN \"" ++ c ++ "\" on \"" ++ tableName ++ "\""
  | .addShadowColumn c _ _ _ => "ADD COLUMN \"" ++ c ++ "\" (shadow) on \"" ++ tableName ++ "\""
  | .backfillColumn source shadow =>
    "BACKFILL \"" ++ shadow ++ "\" FROM \"" ++ source ++ "\" on \"" ++ tableName ++ "\""
  | .cutoverColumn source shadow final =>
    "CUTOVER \"" ++ shadow ++ "\" -> \"" ++ final ++ "\" (drop \"" ++ source ++ "\") on \"" ++
      tableName ++ "\""

def stepMigration (data : FieldEditJobData) (step : FieldEditStep) (status : MigrationStatus)
    (error : Option String) : MetaMigration :=
  { tableId := some data.tableId, jobId := data.jobId, operation := step.kind,
    statement := describeStep data.tableName step, status := status, error := error }

/-- One effect of the closing metadata transaction. -/
def applyEffect (tableId : Uuid) (db : TenantSchema) : FieldMetadataEffect →
    Except String TenantSchema
  | .upsertField name slug dataType required config relationTargetTableId =>
    upsertMetaField
      { tableId := tableId, name := name, slug := slug, dataType := dataType,
        required := required, config := config,
        relationTargetTableId := relationTargetTableId } db
  | .removeField slug => pure (removeMetaField tableId slug db)

/-- One iteration of the loop over `data.steps`: the step in its own
transaction, and its migration row. -/
def runStep (pg : Postgres) (data : FieldEditJobData) (step : FieldEditStep) : DdlProg :=
  tryCatch
    (do
      TxProg.transaction (executeStep pg data.tableName step)
      recordMigration (stepMigration data step .completed none))
    fun error => do
      recordMigration (stepMigration data step .failed (some error))
      throw error

def processFieldEdit (pg : Postgres) (data : FieldEditJobData) : DdlProg := do
  data.steps.forM (runStep pg data)
  TxProg.transaction fun db => data.metadataEffects.foldlM (applyEffect data.tableId) db

/-- `DdlWorker.process`. -/
def process (pg : Postgres) : DdlJobData → DdlProg
  | .createTable data => processCreateTable data
  | .fieldEdit data => processFieldEdit pg data

end Flexi.DynamicTables
