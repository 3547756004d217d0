import Flexi.DynamicTables.Types
import Mathlib.Data.List.AList

/-!
# The tenant schema: physical tables and metadata rows

The part of Postgres the worker and the row routes rely on. A table is a
finite map from column names to definitions; a statement either fails with an
error text and leaves the schema as it was, or yields the new schema.
-/

namespace Flexi.DynamicTables
open Flexi.Tenancy

/-- Postgres cuts an identifier to 63 bytes. -/
def truncateIdentifier (name : String) : String :=
  String.ofList (name.toList.take MAX_IDENTIFIER_LENGTH)

/-- The column types that `addTypedColumn`, `addRelationColumn` and the fixed
part of `createTable` produce. -/
inductive PgType where
  | integer | varchar255 | text | decimal | boolean | date | timestamptz | jsonb
  deriving DecidableEq, Repr

inductive ColumnDefault where
  | nextval | now
  deriving DecidableEq, Repr

/-- `references` is the qualified table an `id` foreign key with
`ON DELETE SET NULL` points at. -/
structure ColumnDef where
  type : PgType
  nullable : Bool
  default : Option ColumnDefault
  primary : Bool
  references : Option String
  deriving DecidableEq, Repr

inductive Cell where
  | null
  | int (i : ℤ)
  | num (q : ℚ)
  | str (s : String)
  | bool (b : Bool)
  | instant (ms : ℚ)
  | json (j : Json)

namespace Cell

def isNull : Cell → Bool
  | .null => true
  | _ => false

/-- Equal key values; keys are integers or, in the seed tables, texts. -/
def sameKey : Cell → Cell → Bool
  | .int i, .int j => i == j
  | .str s, .str s' => s == s'
  | _, _ => false

end Cell

abbrev Row := String → Cell

/-- What Postgres does with a bound value and with an assignment between two
column types; `none` is an error of the statement. -/
structure Postgres where
  input : PgType → Json → Option Cell
  hasAssignmentCast : PgType → PgType → Bool
  assignCast : PgType → PgType → Cell → Option Cell
  currentTimestamp : Cell

abbrev Columns := AList fun _ : String => ColumnDef

/-- A foreign key in an `ADD COLUMN`: the name of its constraint and its target. -/
structure ForeignKey where
  constraint : String
  target : String

/-- The columns with a foreign key, under the names of the constraints. -/
abbrev ForeignKeys := AList fun _ : String => String

namespace ForeignKeys

/-- A dropped column takes its key along. -/
def without (keys : ForeignKeys) (column : String) : ForeignKeys :=
  ⟨keys.entries.filter fun key => key.2 != column, keys.nodupKeys.sublist List.filter_sublist⟩

/-- A renamed column keeps its key, and the key its name. -/
def rename (keys : ForeignKeys) (old new : String) : ForeignKeys :=
  ⟨keys.entries.map (.map id fun _ column => if column = old then new else column), by
    rw [List.NodupKeys, List.map₂_keys]
    exact keys.nodupKeys⟩

end ForeignKeys

/-- `createdBy` is a history field: the create-table job whose `CREATE TABLE`
made the table, none for the tables provisioning seeds. -/
structure PhysTable where
  columns : Columns
  rows : List Row
  nextId : ℕ
  createdBy : Option Uuid
  foreignKeys : ForeignKeys := ∅

abbrev Tables := AList fun _ : String => PhysTable

/-- A row of `_meta_tables`. -/
structure MetaTable where
  id : Uuid
  name : String
  slug : String
  description : Option String
  ownerColumn : Option String

/-- A row of `_meta_fields`. -/
structure MetaField where
  tableId : Uuid
  name : String
  slug : String
  dataType : FieldDataType
  required : Bool
  config : Option Json
  relationTargetTableId : Option Uuid

inductive MigrationStatus where
  | completed | failed
  deriving DecidableEq, Repr

/-- A row of `_meta_migrations`. -/
structure MetaMigration where
  tableId : Option Uuid
  jobId : Uuid
  operation : String
  statement : String
  status : MigrationStatus
  error : Option String

structure TenantSchema where
  schema : String
  tables : Tables
  metaTables : List MetaTable
  metaFields : List MetaField
  metaMigrations : List MetaMigration

namespace TenantSchema

variable (db : TenantSchema)

/-- The table `name` replaced by `t`, everything else as it was. -/
def setTable (name : String) (t : PhysTable) : TenantSchema :=
  { db with tables := db.tables.insert name t }

@[simp] theorem setTable_lookup (name : String) (t : PhysTable) :
    (db.setTable name t).tables.lookup name = some t := AList.lookup_insert _

theorem setTable_lookup_ne {name n : String} (t : PhysTable) (h : n ≠ name) :
    (db.setTable name t).tables.lookup n = db.tables.lookup n := AList.lookup_insert_ne h

@[simp] theorem setTable_metaTables (name : String) (t : PhysTable) :
    (db.setTable name t).metaTables = db.metaTables := rfl

@[simp] theorem setTable_metaFields (name : String) (t : PhysTable) :
    (db.setTable name t).metaFields = db.metaFields := rfl

@[simp] theorem setTable_schema (name : String) (t : PhysTable) :
    (db.setTable name t).schema = db.schema := rfl

/-! ### Catalog reads -/

def hasTable (name : String) : Bool :=
  (db.tables.lookup name).isSome || [META_TABLES, META_FIELDS, META_MIGRATIONS].contains name

def hasColumn (table column : String) : Bool :=
  match db.tables.lookup table with
  | some t => (t.columns.lookup column).isSome
  | none => false

/-- Some column of the schema is a foreign key to `table`. -/
def referenced (table : String) : Bool :=
  db.tables.entries.any fun t => t.2.columns.entries.any fun c =>
    c.2.references == some (db.schema ++ "." ++ table)

/-- `table` has the primary key a foreign key column of type `type` needs. -/
def hasPrimaryKey (table : String) (type : PgType) : Bool :=
  match db.tables.lookup table with
  | none => false
  | some t => match t.columns.lookup "id" with
    | none => false
    | some key => key.primary && key.type == type

/-- A foreign key to `target` allows NULL and the ids that a table of this name has. -/
def resolves (target : String) (v : Cell) : Bool :=
  v.isNull || db.tables.entries.any fun u => (db.schema ++ "." ++ u.1 == target) &&
    u.2.rows.any fun r => (r "id").sameKey v

/-! ### DDL -/

def relationMissing (table : String) : String :=
  "relation \"" ++ table ++ "\" does not exist"

def createTable (name : String) (cols : List (Σ _ : String, ColumnDef)) (jobId : Uuid) :
    Except String TenantSchema :=
  if db.hasTable name then
    .error ("relation \"" ++ name ++ "\" already exists")
  else if cols.keys.Nodup then
    .ok (db.setTable name
      { columns := cols.toAList, rows := [], nextId := 1, createdBy := some jobId })
  else .error "column specified more than once"

/-- `ALTER TABLE ... ADD COLUMN`. A new NOT NULL column without a default fails
on a table that has rows; a foreign key needs a name of its own on the table and the
primary key of its target. -/
def addColumn (table column : String) (d : ColumnDef) (key : Option ForeignKey) :
    Except String TenantSchema :=
  match db.tables.lookup table with
  | none => .error (relationMissing table)
  | some t =>
    if (t.columns.lookup column).isSome then
      .error ("column \"" ++ column ++ "\" of relation \"" ++ table ++ "\" already exists")
    else if !d.nullable && !t.rows.isEmpty then
      .error ("column \"" ++ column ++ "\" of relation \"" ++ table ++ "\" contains null values")
    else if key.any fun k => (t.foreignKeys.lookup k.constraint).isSome then
      .error ("constraint \"" ++ key.elim "" ForeignKey.constraint ++ "\" for relation \"" ++ table ++
        "\" already exists")
    else if key.any fun k => !db.hasPrimaryKey k.target d.type then
      .error "there is no unique constraint matching given keys for referenced table"
    else .ok (db.setTable table
      { t with
        columns := t.columns.insert column d
        rows := t.rows.map fun r => Function.update r column .null
        foreignKeys := key.elim t.foreignKeys fun k => t.foreignKeys.insert k.constraint column })

/-- `ALTER TABLE ... DROP COLUMN`, without `CASCADE`: a key that other tables
point at cannot go. -/
def dropColumn (table column : String) : Except String TenantSchema :=
  match db.tables.lookup table with
  | none => .error (relationMissing table)
  | some t =>
    if (t.columns.lookup column).isNone then
      .error ("column \"" ++ column ++ "\" of relation \"" ++ table ++ "\" does not exist")
    else if column == "id" && db.referenced table then
      .error ("cannot drop column id of table " ++ table ++ " because other objects depend on it")
    else .ok (db.setTable table
      { t with
        columns := t.columns.erase column
        rows := t.rows.map fun r => Function.update r column .null
        foreignKeys := t.foreignKeys.without column })

def renameColumn (table old new : String) : Except String TenantSchema :=
  match db.tables.lookup table with
  | none => .error (relationMissing table)
  | some t =>
    match t.columns.lookup old with
    | none => .error ("column \"" ++ old ++ "\" does not exist")
    | some d =>
      if (t.columns.lookup new).isSome then
        .error ("column \"" ++ new ++ "\" of relation \"" ++ table ++ "\" already exists")
      else .ok (db.setTable table
        { t with
          columns := (t.columns.erase old).insert new d
          rows := t.rows.map fun r =>
            Function.update (Function.update r old .null) new (r old)
          foreignKeys := t.foreignKeys.rename old new })

/-- `UPDATE table SET shadow = source` over all rows, each value going through
the assignment cast between the two column types and past the constraints of the
column it is put into. -/
def copyColumn (pg : Postgres) (table source shadow : String) : Except String TenantSchema :=
  match db.tables.lookup table with
  | none => .error (relationMissing table)
  | some t =>
    match t.columns.lookup source, t.columns.lookup shadow with
    | some s, some d =>
      if !pg.hasAssignmentCast s.type d.type then
        .error ("column \"" ++ shadow ++ "\" is of a type the expression cannot be assigned to")
      else
        match t.rows.mapM fun r =>
            (pg.assignCast s.type d.type (r source)).map fun v => Function.update r shadow v with
        | none => .error "value out of range for the column"
        | some rows =>
          if !d.nullable && rows.any fun r => (r shadow).isNull then
            .error ("null value in column \"" ++ shadow ++ "\" violates not-null constraint")
          else if d.references.any fun target => rows.any fun r => !db.resolves target (r shadow) then
            .error ("update on table \"" ++ table ++ "\" violates foreign key constraint")
          else .ok (db.setTable table { t with rows := rows })
    | _, _ => .error "column does not exist"

end TenantSchema

end Flexi.DynamicTables
