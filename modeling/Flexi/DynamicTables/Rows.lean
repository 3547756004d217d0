import Flexi.DynamicTables.Service

/-!
# Row writes (dynamic-tables.service.ts, CAP-3)

The generated validation schema, its cache, and the two row writes that take a
payload.
-/

namespace Flexi.DynamicTables

/-! ### The generated validation schema -/

def readNumberConfig (config : Option Json) (key : String) : Option JsNumber :=
  match config.bind fun c => c.get? key with
  | some (.num n) => some n
  | _ => none

def fieldRule (f : MetaField) : FieldValidationRule :=
  { slug := f.slug, dataType := f.dataType, required := f.required,
    minLength := readNumberConfig f.config "minLength",
    maxLength := readNumberConfig f.config "maxLength",
    min := readNumberConfig f.config "min",
    max := readNumberConfig f.config "max",
    enum := match f.config.bind fun c => c.get? "enum" with
      | some (.arr xs) => some xs
      | _ => none,
    relationTargetTableId := f.relationTargetTableId }

/-- `fields[slug] = rule` on a plain object: a known key keeps its place, and
the key `__proto__` sets the prototype instead of an own key. -/
def assignRule (fields : List (String × FieldValidationRule)) (rule : FieldValidationRule) :
    List (String × FieldValidationRule) :=
  if rule.slug = "__proto__" then fields
  else if fields.any fun kv => kv.1 == rule.slug then
    fields.map fun kv => if kv.1 == rule.slug then (rule.slug, rule) else kv
  else fields ++ [(rule.slug, rule)]

def buildValidationSchema (db : TenantSchema) (tableId : Uuid) : TableValidationSchema :=
  { tableId := tableId,
    fields := ((db.metaFields.filter fun f => f.tableId == tableId).map fieldRule).foldl
      assignRule [] }

/-- `validationSchemaCache`: most recently used entry last. -/
abbrev ValidationSchemaCache := List (Uuid × TableValidationSchema)

def invalidateValidationSchema (cache : ValidationSchemaCache) (tableId : Uuid) :
    ValidationSchemaCache :=
  cache.filter fun kv => kv.1 != tableId

def writeValidationSchemaCache (maxEntries : ℕ) (cache : ValidationSchemaCache)
    (tableId : Uuid) (schema : TableValidationSchema) : ValidationSchemaCache :=
  let cache := invalidateValidationSchema cache tableId ++ [(tableId, schema)]
  cache.drop (cache.length - max 1 maxEntries)

def getOrBuildValidationSchema (cfg : Config) (db : TenantSchema) (cache : ValidationSchemaCache)
    (tableId : Uuid) : TableValidationSchema × ValidationSchemaCache :=
  match cache.find? fun kv => kv.1 == tableId with
  | some kv => (kv.2, invalidateValidationSchema cache tableId ++ [kv])
  | none =>
    let schema := buildValidationSchema db tableId
    (schema, writeValidationSchemaCache cfg.DYNAMIC_TABLES_VALIDATION_SCHEMA_CACHE_MAX_ENTRIES
      cache tableId schema)

/-! ### Payload validation -/

variable (js : JsRuntime)

def checkFieldType (rule : FieldValidationRule) (value : Json) : Option String :=
  match rule.dataType, value with
  | .STRING, .str _ | .TEXT, .str _ | .EMAIL, .str _ | .URL, .str _ | .SELECT, .str _ => none
  | .STRING, _ | .TEXT, _ | .EMAIL, _ | .URL, _ | .SELECT, _ => some "must be a string"
  | .NUMBER, .num _ => none
  | .NUMBER, _ => some "must be a number"
  | .BOOLEAN, .bool _ => none
  | .BOOLEAN, _ => some "must be a boolean"
  | .DATE, .str s | .DATETIME, .str s =>
    if (js.dateParse s).isSome then none else some "must be a valid date string"
  | .DATE, _ | .DATETIME, _ => some "must be a valid date string"
  | .JSON, .null | .JSON, .arr _ | .JSON, .obj _ => none
  | .JSON, _ => some "must be a JSON object"
  | .RELATION, .num n => if n.isInteger then none else some "must be an integer id"
  | .RELATION, _ => some "must be an integer id"

def checkFieldConstraints (rule : FieldValidationRule) (value : Json) : List String :=
  let length : Option JsNumber := match value with
    | .str s => some (.finite (utf16Length s))
    | _ => none
  let number : Option JsNumber := match value with
    | .num n => some n
    | _ => none
  let report (subject bound : Option JsNumber) (violates : JsNumber → JsNumber → Bool)
      (text : String → String) : List String :=
    match subject, bound with
    | some x, some b => if violates x b then [rule.slug ++ ": " ++ text (js.numberToString b)] else []
    | _, _ => []
  report length rule.minLength (fun x b => x.lt b) (fun b => "must be at least " ++ b ++ " characters") ++
  report length rule.maxLength (fun x b => b.lt x) (fun b => "must not exceed " ++ b ++ " characters") ++
  report number rule.min (fun x b => x.lt b) (fun b => "must be at least " ++ b) ++
  report number rule.max (fun x b => b.lt x) (fun b => "must not exceed " ++ b) ++
  match rule.enum with
  | none => []
  | some options =>
    if options.any fun o => o.sameValueZero value then []
    else [rule.slug ++ ": must be one of " ++ js.stringify options]

/-- The errors one rule reports on a payload. -/
def checkField (data : List (String × Json)) (isPartial : Bool) (rule : FieldValidationRule) :
    List String :=
  match data.find? fun kv => kv.1 == rule.slug with
  | none => if rule.required && !isPartial then [rule.slug ++ ": is required"] else []
  | some (_, .null) => if rule.required then [rule.slug ++ ": is required"] else []
  | some (_, value) =>
    match checkFieldType js rule value with
    | some typeError => [rule.slug ++ ": " ++ typeError]
    | none => checkFieldConstraints js rule value

def validateRowPayload (schema : TableValidationSchema) (data : List (String × Json))
    (isPartial : Bool) : Except HttpError Unit :=
  match schema.fields.flatMap fun kv => checkField js data isPartial kv.2 with
  | [] => .ok ()
  | errors => .error (.badRequest "VALIDATION_ERROR" errors)

/-- `pickKnownFields`: the payload's values at the schema's own keys. -/
def pickKnownFields (schema : TableValidationSchema) (payload : Json) :
    Except HttpError (List (String × Json)) :=
  match payload with
  | .obj _ =>
    .ok (schema.fields.filterMap fun kv => (payload.get? kv.1).map fun v => (kv.1, v))
  | _ => .error (.badRequest "VALIDATION_ERROR" ["payload must be a JSON object"])

/-! ### Row statements -/

/-- Writes a value into a column of a row; fails on an unknown column, on a value
the type does not take, and on NULL in a NOT NULL column. -/
def writeCell (pg : Postgres) (t : PhysTable) (row : Row) (kv : String × Json) :
    Except HttpError Row :=
  match t.columns.lookup kv.1, kv.2 with
  | none, _ => .error .unexpected
  | some d, .null => if d.nullable then .ok (Function.update row kv.1 .null) else .error .unexpected
  | some d, v => match pg.input d.type v with
    | none => .error .unexpected
    | some c => .ok (Function.update row kv.1 c)

/-- The row before the values of an insert: column defaults, NULL elsewhere. -/
def defaultRow (pg : Postgres) (t : PhysTable) : Row := fun c =>
  match (t.columns.lookup c).bind ColumnDef.default with
  | some .nextval => .int t.nextId
  | some .now => pg.currentTimestamp
  | none => .null

/-- Foreign keys of the written columns. -/
def relationsResolve (db : TenantSchema) (t : PhysTable) (row : Row) (written : List String) : Bool :=
  written.all fun c => match (t.columns.lookup c).bind ColumnDef.references with
    | none => true
    | some target => db.resolves target (row c)

def reshapeForeignKeyViolation : HttpError :=
  .badRequest "VALIDATION_ERROR"
    ["one or more relation fields reference a row that does not exist"]

/-- No NOT NULL column of the table is left empty. -/
def notNullHolds (t : PhysTable) (row : Row) : Bool :=
  t.columns.entries.all fun c => c.2.nullable || match row c.1 with
    | .null => false
    | _ => true

/-- `createRow`, for the caller `tenantUserId`. -/
def createRow (pg : Postgres) (cfg : Config) (db : TenantSchema) (cache : ValidationSchemaCache)
    (tenantUserId : String) (tableId : Uuid) (payload : Json) (bytes : ℕ) :
    Except HttpError TenantSchema × ValidationSchemaCache :=
  match assertMutationPayloadSize cfg bytes, findMetaTableOrThrow db tableId with
  | .error e, _ | .ok _, .error e => (.error e, cache)
  | .ok _, .ok tableRow =>
    let (schema, cache) := getOrBuildValidationSchema cfg db cache tableRow.id
    (do
      let data ← pickKnownFields schema payload
      validateRowPayload js schema data false
      match db.tables.lookup tableRow.name with
      | none => throw .unexpected
      | some t =>
        -- `{ ...data, [OWNER_COLUMN]: tenantUserId }`: the owner wins over a field of that name
        let values := data.filter (fun kv => kv.1 != OWNER_COLUMN) ++
          [(OWNER_COLUMN, Json.str tenantUserId)]
        let row ← values.foldlM (writeCell pg t) (defaultRow pg t)
        if !notNullHolds t row then throw .unexpected
        else if !relationsResolve db t row (values.map Prod.fst) then
          throw reshapeForeignKeyViolation
        else pure (db.setTable tableRow.name
          { t with rows := t.rows ++ [row], nextId := t.nextId + 1 }),
     cache)

/-- Does a row carry the id a request names? -/
def hasId (rowId : ℤ) (row : Row) : Bool :=
  match row "id" with
  | .int i => i == rowId
  | _ => false

def rowNotFound (rowId : ℤ) : HttpError := .notFound ("No row found with id " ++ toString rowId)

def updateRow (pg : Postgres) (cfg : Config) (db : TenantSchema) (cache : ValidationSchemaCache)
    (tableId : Uuid) (rowId : ℤ) (payload : Json) (bytes : ℕ) :
    Except HttpError TenantSchema × ValidationSchemaCache :=
  match assertMutationPayloadSize cfg bytes, findMetaTableOrThrow db tableId with
  | .error e, _ | .ok _, .error e => (.error e, cache)
  | .ok _, .ok tableRow =>
    match db.tables.lookup tableRow.name with
    | none => (.error .unexpected, cache)
    | some t =>
      if !t.rows.any (hasId rowId) then (.error (rowNotFound rowId), cache)
      else
        let (schema, cache) := getOrBuildValidationSchema cfg db cache tableRow.id
        (do
          let data ← pickKnownFields schema payload
          validateRowPayload js schema data true
          if data.isEmpty then
            throw (.badRequest "VALIDATION_ERROR" ["no updatable fields provided"])
          else
            let rows ← t.rows.mapM fun row =>
              if hasId rowId row then do
                let row ← data.foldlM (writeCell pg t) row
                if relationsResolve db t row (data.map Prod.fst) then pure row
                else throw reshapeForeignKeyViolation
              else pure row
            pure (db.setTable tableRow.name { t with rows := rows }),
         cache)

end Flexi.DynamicTables
