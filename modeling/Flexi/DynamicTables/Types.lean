import Flexi.Common.Json
import Flexi.Tenancy.Identifiers

/-!
# Requests and jobs of the dynamic-tables module (dto/*.ts, dynamic-tables.types.ts)

Identifiers minted by `randomUUID()` are numbers drawn from a counter, and so
are the ids of job payloads and metadata rows.
-/

namespace Flexi.DynamicTables

abbrev Uuid := ℕ

inductive FieldDataType where
  | STRING | TEXT | NUMBER | BOOLEAN | DATE | DATETIME | JSON | EMAIL | URL | SELECT | RELATION
  deriving DecidableEq, Repr

/-! ### Request bodies -/

/-- `CreateTableFieldDto`; the last field is its `NON_RELATION_FIELD_DATA_TYPES`
check. -/
structure CreateTableFieldDto where
  name : String
  dataType : FieldDataType
  required : Option Bool
  config : Option Json
  not_relation : dataType ≠ .RELATION

/-- `CreateTableDto`. `bytes` is the length of the serialised body, which
`assertMutationPayloadSize` measures. -/
structure CreateTableDto where
  name : String
  description : Option String
  fields : List CreateTableFieldDto
  bytes : ℕ
  fields_ne : fields ≠ []

inductive FieldEditOperation where
  | add | remove | modify
  deriving DecidableEq, Repr

/-- `FieldEditDto`. The `@ValidateIf` check on `relatedTableId` is repeated by
`buildFieldEditSteps`, so it is not carried here. -/
structure FieldEditDto where
  operation : FieldEditOperation
  name : String
  dataType : Option FieldDataType
  required : Option Bool
  config : Option Json
  relatedTableId : Option Uuid

structure UpdateFieldDto where
  edits : List FieldEditDto
  bytes : ℕ
  edits_ne : edits ≠ []

/-! ### Job payloads -/

structure CreateTableJobField where
  name : String
  dataType : FieldDataType
  required : Bool
  config : Option Json

structure CreateTableJobData where
  jobId : Uuid
  tableId : Uuid
  tableName : String
  description : Option String
  fields : List CreateTableJobField

inductive FieldEditStep where
  | addColumn (columnName : String) (dataType : FieldDataType) (required : Bool)
      (config : Option Json)
  | dropColumn (columnName : String)
  | addShadowColumn (shadowColumnName : String) (dataType : FieldDataType) (required : Bool)
      (config : Option Json)
  | backfillColumn (sourceColumnName shadowColumnName : String)
  | cutoverColumn (sourceColumnName shadowColumnName finalColumnName : String)
  | addRelationColumn (columnName targetTableName : String) (required : Bool)

inductive FieldMetadataEffect where
  | upsertField (name slug : String) (dataType : FieldDataType) (required : Bool)
      (config : Option Json) (relationTargetTableId : Option Uuid)
  | removeField (slug : String)

structure FieldEditJobData where
  jobId : Uuid
  tableId : Uuid
  tableName : String
  steps : List FieldEditStep
  metadataEffects : List FieldMetadataEffect

inductive DdlJobData where
  | createTable (data : CreateTableJobData)
  | fieldEdit (data : FieldEditJobData)

namespace DdlJobData

def jobId : DdlJobData → Uuid
  | .createTable data => data.jobId
  | .fieldEdit data => data.jobId

def tableId : DdlJobData → Uuid
  | .createTable data => data.tableId
  | .fieldEdit data => data.tableId

end DdlJobData

/-! ### Generated validation rules -/

structure FieldValidationRule where
  slug : String
  dataType : FieldDataType
  required : Bool
  minLength : Option JsNumber
  maxLength : Option JsNumber
  min : Option JsNumber
  max : Option JsNumber
  enum : Option (List Json)
  relationTargetTableId : Option Uuid

/-- `fields` lists the own keys of the source's object in insertion order. -/
structure TableValidationSchema where
  tableId : Uuid
  fields : List (String × FieldValidationRule)

/-- The system columns every created table has beside its declared fields. -/
def systemColumns : List String := ["id", "owner_user_id", "created_at", "updated_at"]

def META_TABLES : String := "_meta_tables"
def META_FIELDS : String := "_meta_fields"
def META_MIGRATIONS : String := "_meta_migrations"
def OWNER_COLUMN : String := "owner_user_id"

end Flexi.DynamicTables
