import Flexi.DynamicTables.RowPayload

/-!
# Row-list queries (dynamic-tables.service.ts)

What `listRows` makes of the query string: the checks of `resolveRowListQuery` and the two
statements built from what it resolves. A field is looked up as a property of
`schema.fields`, so the names a plain object inherits answer as well.
-/

namespace Flexi.DynamicTables
open Flexi.Library Flexi.Tenancy Flexi.Tenants

/-! ### Requests and their errors -/

/-- A numeric query parameter as `parseQueryNumber` leaves it. -/
inductive QueryNumber where
  | nan
  | number (n : JsNumber)
  deriving DecidableEq

/-- `DynamicTableRowQueryDto`; an object's own keys are distinct. -/
structure DynamicTableRowQueryDto where
  page : Option QueryNumber
  pageSize : Option QueryNumber
  sortBy : Option String
  sortDirection : Option String
  filters : Option Json
  keys_nodup : ∀ members, filters = some (.obj members) → (members.map Prod.fst).Nodup

inductive SortDirection where
  | asc | desc
  deriving DecidableEq, Repr

structure ResolvedRowListQuery where
  page : ℕ
  pageSize : ℕ
  sortBy : Option String
  sortDirection : SortDirection
  filters : List (String × Json)

inductive RowQueryParam where
  | page | pageSize | sortBy | sortDirection | filters
  deriving DecidableEq, Repr

def RowQueryParam.name : RowQueryParam → String
  | .page => "page"
  | .pageSize => "pageSize"
  | .sortBy => "sortBy"
  | .sortDirection => "sortDirection"
  | .filters => "filters"

/-- The body of a row-query error; `fields` has a code for the parameter at fault. -/
structure QueryError extends HttpError where
  fields : List (String × String)

def invalidRowQuery (message : String) (field : RowQueryParam) : QueryError :=
  { HttpError.validation message with fields := [(field.name, field.name.toUpper ++ "_INVALID")] }

def ROW_DEFAULT_PAGE : ℕ := 1
def ROW_DEFAULT_PAGE_SIZE : ℕ := 50

def pageSizeExceeded (maxPageSize : ℕ) : QueryError :=
  { HttpError.badRequest "DYNAMIC_TABLES_PAGE_SIZE_EXCEEDED"
      ["pageSize must not exceed " ++ toString maxPageSize] with fields := [] }

/-- The 400 of a row query. -/
inductive QueryError.RowQuery : QueryError → Prop
  | invalid (message : String) (field : RowQueryParam) : RowQuery (invalidRowQuery message field)
  | pageSize (maxPageSize : ℕ) : RowQuery (pageSizeExceeded maxPageSize)

theorem QueryError.RowQuery.status {e : QueryError} (h : e.RowQuery) : e.status = 400 := by
  cases h with
  | invalid => rfl
  | pageSize => rfl

/-! ### Reading a property of `schema.fields` -/

/-- `schema.fields` as property reads see it: the own rules, and the prototype that a field
named `__proto__` gives it. -/
structure FieldsObject where
  own : List (String × FieldValidationRule)
  prototype : Option FieldValidationRule

def FieldsObject.assign (fields : FieldsObject) (rule : FieldValidationRule) : FieldsObject :=
  if rule.slug = PROTO then { fields with prototype := some rule }
  else { fields with own := assignRule fields.own rule }

/-- The object `getOrBuildValidationSchema` fills. -/
def fieldsObject (db : TenantSchema) (tableId : Uuid) : FieldsObject :=
  ((db.fieldsOf tableId).map fieldRule).foldl FieldsObject.assign { own := [], prototype := none }

/-- What `Object.prototype` has beside `__proto__`. -/
def OBJECT_PROTOTYPE : List String :=
  ["constructor", "hasOwnProperty", "isPrototypeOf", "propertyIsEnumerable", "toLocaleString",
    "toString", "valueOf", "__defineGetter__", "__defineSetter__", "__lookupGetter__",
    "__lookupSetter__"]

def truthyNumber (n : Option JsNumber) : Bool := n.any fun n => n != .finite 0

/-- The properties of a rule, each with its truth value. -/
def FieldValidationRule.properties (rule : FieldValidationRule) : List (String × Bool) :=
  [("slug", rule.slug != ""), ("dataType", true), ("required", rule.required),
    ("minLength", truthyNumber rule.minLength), ("maxLength", truthyNumber rule.maxLength),
    ("min", truthyNumber rule.min), ("max", truthyNumber rule.max), ("enum", rule.enum.isSome),
    ("relationTargetTableId", rule.relationTargetTableId.isSome)]

/-- What a read of `schema.fields` yields: a rule, or something that has no `dataType`. -/
inductive Property where
  | rule (rule : FieldValidationRule)
  | other (truthy : Bool)

def FieldsObject.read (fields : FieldsObject) (name : String) : Property :=
  match fields.own.find? fun kv => kv.1 == name with
  | some kv => .rule kv.2
  | none => match fields.prototype with
    | none => .other (name == PROTO || OBJECT_PROTOTYPE.contains name)
    | some rule =>
      if name = PROTO then .rule rule
      else .other ((rule.properties.lookup name).getD (OBJECT_PROTOTYPE.contains name))

def Property.truthy : Property → Bool
  | .rule _ => true
  | .other truthy => truthy

/-- `checkFieldType` reports an error: without a `dataType` it always does. -/
def Property.refuses (js : JsRuntime) (value : Json) : Property → Bool
  | .rule r => (checkFieldType js r value).isSome
  | .other _ => true

/-! ### The checks -/

/-- `Number.isInteger(value) && value > 0`. -/
def QueryNumber.positiveInteger? : QueryNumber → Option ℕ
  | .number (.finite q) => if q.den = 1 ∧ 0 < q.num then some q.num.toNat else none
  | _ => none

def parsePositiveInteger (value : Option QueryNumber) (defaultValue : ℕ) (field : RowQueryParam) :
    Except QueryError ℕ :=
  match value with
  | none => pure defaultValue
  | some value => match value.positiveInteger? with
    | some n => pure n
    | none => throw (invalidRowQuery (field.name ++ " must be a positive integer") field)

def sanitizeRowQueryIdentifier (name : String) (field : RowQueryParam) : Except QueryError String :=
  match sanitizeIdentifier name with
  | .ok name => pure name
  | .error message => throw (invalidRowQuery message field)

def resolvePageSize (cfg : Config) (value : Option QueryNumber) : Except QueryError ℕ := do
  let requestedPageSize ← parsePositiveInteger value ROW_DEFAULT_PAGE_SIZE .pageSize
  if cfg.DYNAMIC_TABLES_MAX_PAGE_SIZE < requestedPageSize then
    throw (pageSizeExceeded cfg.DYNAMIC_TABLES_MAX_PAGE_SIZE)
  else pure requestedPageSize

def resolveSortBy (fields : FieldsObject) (sortBy : Option String) :
    Except QueryError (Option String) :=
  match sortBy with
  | none => pure none
  | some name =>
    if !(fields.read name).truthy then throw
        (invalidRowQuery "sortBy must name a table field" .sortBy)
    else some <$> sanitizeRowQueryIdentifier name .sortBy

def resolveSortDirection (sortDirection : Option String) : Except QueryError SortDirection :=
  match sortDirection with
  | none => pure .asc
  | some direction =>
    if direction = "asc" then pure .asc
    else if direction = "desc" then pure .desc
    else throw (invalidRowQuery "sortDirection must be either \"asc\" or \"desc\"" .sortDirection)

/-- `query.filters ?? {}`, and its entries. -/
def requestedFilters (filters : Option Json) : Except QueryError (List (String × Json)) :=
  match filters with
  | none | some .null => pure []
  | some (.obj members) => pure members
  | some _ => throw (invalidRowQuery "filters must be an object" .filters)

def isNull : Json → Bool
  | .null => true
  | _ => false

/-- `filters[field] = value` on a plain object. -/
def assignFilter (filters : List (String × Json)) (kv : String × Json) : List (String × Json) :=
  if kv.1 = PROTO then filters
  else if filters.any fun other => other.1 == kv.1 then
    filters.map fun other => if other.1 == kv.1 then kv else other
  else filters ++ [kv]

def resolveFilter (js : JsRuntime) (fields : FieldsObject) (filters : List (String × Json))
    (kv : String × Json) : Except QueryError (List (String × Json)) :=
  let rule := fields.read kv.1
  if !rule.truthy then
    throw (invalidRowQuery ("filters." ++ kv.1 ++ " must name a table field") .filters)
  else if !isNull kv.2 && rule.refuses js kv.2 then
    throw (invalidRowQuery ("filters." ++ kv.1 ++ " has an invalid value") .filters)
  else do
    let field ← sanitizeRowQueryIdentifier kv.1 .filters
    pure (assignFilter filters (field, kv.2))

def resolveRowListQuery (js : JsRuntime) (cfg : Config) (query : DynamicTableRowQueryDto)
    (fields : FieldsObject) : Except QueryError ResolvedRowListQuery := do
  let page ← parsePositiveInteger query.page ROW_DEFAULT_PAGE .page
  let pageSize ← resolvePageSize cfg query.pageSize
  let sortBy ← resolveSortBy fields query.sortBy
  let sortDirection ← resolveSortDirection query.sortDirection
  let entries ← requestedFilters query.filters
  let filters ← entries.foldlM (resolveFilter js fields) []
  pure { page := page, pageSize := pageSize, sortBy := sortBy, sortDirection := sortDirection,
         filters := filters }

/-! ### The queries of `listRows` -/

/-- A `leftJoin` of `buildRowQuery` with its `json_agg`. -/
structure RelationJoin where
  target : String
  joinAlias : String
  slug : String

/-- The page query: one join for each relation, grouped by the primary key where there is
one, the filters, the order and the page. -/
structure RowQuery where
  table : String
  joins : List RelationJoin
  groupById : Bool
  filters : List (String × Json)
  orderBy : List (String × SortDirection)
  limit : ℕ
  offset : ℕ

structure CountQuery where
  table : String
  filters : List (String × Json)

/-- The relations that `buildRowQuery` resolves. -/
def relationRules (fields : FieldsObject) : List (FieldValidationRule × Uuid) :=
  fields.own.filterMap fun kv =>
    if kv.2.dataType = .RELATION then kv.2.relationTargetTableId.map fun id => (kv.2, id) else none

/-- The join of one relation; a target table without a row in `_meta_tables` is skipped. -/
def relationJoin (db : TenantSchema) (relation : FieldValidationRule × Uuid) :
    Option RelationJoin :=
  (db.metaTables.find? fun m => m.id == relation.2).map fun m =>
    { target := m.name, joinAlias := relation.1.slug ++ "__rel", slug := relation.1.slug }

def buildRowQuery (db : TenantSchema) (tableName : String) (fields : FieldsObject)
    (options : ResolvedRowListQuery) : RowQuery :=
  let relations := relationRules fields
  { table := tableName, joins := relations.filterMap (relationJoin db), groupById :=
    !relations.isEmpty,
    filters := options.filters,
    orderBy := (options.sortBy.map fun field =>
        (field, options.sortDirection)).toList ++ [("id", .asc)],
    limit := options.pageSize, offset := (options.page - 1) * options.pageSize }

structure RowListing where
  options : ResolvedRowListQuery
  rows : RowQuery
  count : CountQuery

/-- What `listRows` sends to the database: nothing where the query is refused. -/
def listRowsQueries (js : JsRuntime) (cfg : Config) (db : TenantSchema) (tableRow : MetaTable)
    (query : DynamicTableRowQueryDto) : Except QueryError RowListing := do
  let fields := fieldsObject db tableRow.id
  let options ← resolveRowListQuery js cfg query fields
  pure { options := options
         rows := buildRowQuery db tableRow.name fields options
         count := { table := tableRow.name, filters := options.filters } }

/-! ### What a property read finds -/

/-- The rule that is assigned last under a name. -/
def lastRule (rules : List FieldValidationRule) (name : String) : Option FieldValidationRule :=
  (rules.filter fun rule => rule.slug == name).getLast?

/-- The object after assigning the rules of `rules`. -/
structure FieldsObject.Holds (fields : FieldsObject) (rules : List FieldValidationRule) : Prop where
  own : ∀ kv ∈ fields.own, kv.1 ≠ PROTO ∧ kv.2 ∈ rules ∧ kv.2.slug = kv.1
  find : ∀ name, name ≠ PROTO → fields.own.find? (fun kv => kv.1 == name) =
    (lastRule rules name).map fun rule => (name, rule)
  prototype : fields.prototype = lastRule rules PROTO

namespace FieldsObject

variable {fields : FieldsObject} {rules : List FieldValidationRule} {rule : FieldValidationRule}
  {name : String}

theorem lastRule_concat : lastRule (rules ++ [rule]) name =
    if rule.slug = name then some rule else lastRule rules name := by
  unfold lastRule
  rw [List.filter_append]
  by_cases h : rule.slug = name
  · rw [List.filter_cons_of_pos (by simpa using h), List.filter_nil, List.getLast?_concat, if_pos h]
  · rw [List.filter_cons_of_neg (by simpa using h), List.filter_nil, List.append_nil, if_neg h]

theorem mem_assignRule {own : List (String × FieldValidationRule)} {kv : String × FieldValidationRule}
    (h : kv ∈ assignRule own rule) : kv ∈ own ∨ kv = (rule.slug, rule) := by
  unfold assignRule at h
  split at h
  · exact .inl h
  split at h
  · obtain ⟨kv', hkv', rfl⟩ := List.mem_map.mp h
    split
    · exact .inr rfl
    · exact .inl hkv'
  · rcases List.mem_append.mp h with h | h
    · exact .inl h
    · exact .inr (List.mem_singleton.mp h)

theorem find?_assignRule {own : List (String × FieldValidationRule)} (hproto : rule.slug ≠ PROTO) :
    (assignRule own rule).find? (fun kv => kv.1 == name) =
      if rule.slug = name then some (rule.slug, rule) else own.find? fun kv => kv.1 == name := by
  unfold assignRule
  rw [if_neg (show rule.slug ≠ "__proto__" from hproto)]
  by_cases hany : (own.any fun kv => kv.1 == rule.slug) = true
  · rw [if_pos hany, List.find?_map]
    have hkeys : ((fun kv : String × FieldValidationRule => kv.1 == name) ∘
        fun kv => if kv.1 == rule.slug then (rule.slug, rule) else kv) = fun kv => kv.1 == name := by
      funext kv
      by_cases hslug : kv.1 = rule.slug
      · simp [hslug]
      · simp [hslug]
    rw [hkeys]
    by_cases hname : rule.slug = name
    · subst hname
      obtain ⟨kv, hkv, hslug⟩ := List.any_eq_true.mp hany
      cases hfound : own.find? fun kv => kv.1 == rule.slug with
      | none => exact absurd hslug (List.find?_eq_none.mp hfound kv hkv)
      | some found =>
        have hkey : (found.1 == rule.slug) = true := by simpa using List.find?_some hfound
        rw [Option.map_some, if_pos hkey, if_pos rfl]
    · rw [if_neg hname]
      cases hfound : own.find? fun kv => kv.1 == name with
      | none => rfl
      | some kv =>
        have hkey : kv.1 = name := by simpa using List.find?_some hfound
        have hother : ¬ (kv.1 == rule.slug) = true := by
          rw [beq_iff_eq, hkey]
          exact Ne.symm hname
        rw [Option.map_some, if_neg hother]
  · rw [if_neg hany, List.find?_append]
    by_cases hname : rule.slug = name
    · subst hname
      rw [List.find?_eq_none.mpr fun kv hkv hslug => hany (List.any_eq_true.mpr ⟨kv, hkv, hslug⟩)]
      simp
    · simp [hname]

theorem Holds.assign (h : fields.Holds rules) (rule : FieldValidationRule) :
    (fields.assign rule).Holds (rules ++ [rule]) := by
  have hold : ∀ r ∈ rules, r ∈ rules ++ [rule] := fun r hr => List.mem_append_left _ hr
  unfold FieldsObject.assign
  by_cases hproto : rule.slug = PROTO
  · rw [if_pos hproto]
    constructor
    · intro kv hkv
      obtain ⟨hne, hmem, hslug⟩ := h.own kv hkv
      exact ⟨hne, hold _ hmem, hslug⟩
    · intro name hname
      rw [lastRule_concat, if_neg fun hslug => hname (hslug.symm.trans hproto)]
      exact h.find name hname
    · rw [lastRule_concat, if_pos hproto]
  · rw [if_neg hproto]
    constructor
    · intro kv hkv
      rcases mem_assignRule hkv with hkv | rfl
      · obtain ⟨hne, hmem, hslug⟩ := h.own kv hkv
        exact ⟨hne, hold _ hmem, hslug⟩
      · exact ⟨hproto, by simp, rfl⟩
    · intro name hname
      rw [find?_assignRule hproto, lastRule_concat, h.find name hname]
      by_cases hslug : rule.slug = name
      · rw [if_pos hslug, if_pos hslug, Option.map_some, hslug]
      · rw [if_neg hslug, if_neg hslug]
    · rw [lastRule_concat, if_neg hproto]
      exact h.prototype

theorem Holds.foldl (h : fields.Holds rules) (more : List FieldValidationRule) :
    (more.foldl FieldsObject.assign fields).Holds (rules ++ more) := by
  induction more generalizing fields rules with
  | nil => simpa using h
  | cons rule more ih =>
    have hnext := ih (h.assign rule)
    rw [List.append_assoc] at hnext
    exact hnext

/-- The truth value of what an object without the key inherits. -/
def inheritsTruthy (prototype : Option FieldValidationRule) (name : String) : Bool :=
  match prototype with
  | none => name == PROTO || OBJECT_PROTOTYPE.contains name
  | some rule => (rule.properties.lookup name).getD (OBJECT_PROTOTYPE.contains name)

/-- A read finds the last rule of the name, and otherwise what the object inherits. -/
theorem Holds.read (h : fields.Holds rules) (name : String) :
    fields.read name =
      (lastRule rules name).elim (.other (inheritsTruthy (lastRule rules PROTO) name)) .rule := by
  unfold FieldsObject.read
  rw [h.prototype]
  by_cases hname : name = PROTO
  · subst hname
    have hnone : (fields.own.find? fun kv => kv.1 == PROTO) = none :=
      List.find?_eq_none.mpr fun kv hkv => by simp [(h.own kv hkv).1]
    rw [hnone]
    cases lastRule rules PROTO with
    | none => rfl
    | some rule => exact if_pos rfl
  · rw [h.find name hname]
    cases lastRule rules name with
    | some rule => rfl
    | none =>
      cases lastRule rules PROTO with
      | none => rfl
      | some rule => exact if_neg hname

end FieldsObject

theorem fieldsObject_holds (db : TenantSchema) (tableId : Uuid) :
    (fieldsObject db tableId).Holds ((db.fieldsOf tableId).map fieldRule) := by
  have hempty : (FieldsObject.mk [] none).Holds [] := by
    constructor <;> simp [lastRule]
  exact hempty.foldl _

/-! ### The names a query may use -/

/-- The field of a table that a slug names. -/
def TenantSchema.fieldNamed (db : TenantSchema) (tableId : Uuid) (name : String) :
    Option MetaField :=
  ((db.fieldsOf tableId).filter fun f => f.slug == name).getLast?

/-- The names that are no keys of `schema.fields` and yet read as truthy: those of
`Object.prototype`, and `__proto__` itself or, where a field is so named, the properties of its
rule. -/
def TenantSchema.inheritedNames (db : TenantSchema) (tableId : Uuid) : List String :=
  OBJECT_PROTOTYPE ++ match db.fieldNamed tableId PROTO with
    | none => [PROTO]
    | some f => ((fieldRule f).properties.filter Prod.snd).map Prod.fst

section Names

variable {db : TenantSchema} {tableId : Uuid} {name : String}

theorem lastRule_map (fields : List MetaField) : lastRule (fields.map fieldRule) name =
    ((fields.filter fun f => f.slug == name).getLast?).map fieldRule := by
  rw [lastRule, List.filter_map, List.getLast?_map]
  rfl

theorem fieldNamed_some {f : MetaField} (h : db.fieldNamed tableId name = some f) :
    f ∈ db.fieldsOf tableId ∧ f.slug = name := by
  have hmem := List.mem_of_getLast? h
  rw [List.mem_filter, beq_iff_eq] at hmem
  exact hmem

theorem fieldNamed_none : db.fieldNamed tableId name = none ↔ name ∉ db.fieldSlugs tableId := by
  rw [TenantSchema.fieldNamed, List.getLast?_eq_none_iff, List.filter_eq_nil_iff]
  constructor
  · intro h hmem
    obtain ⟨f, hf, hslug⟩ := List.mem_map.mp hmem
    exact h f hf (beq_iff_eq.mpr hslug)
  · exact fun h f hf hslug => h (List.mem_map.mpr ⟨f, hf, beq_iff_eq.mp hslug⟩)

/-- `schema.fields[name]` for the schema of a table. -/
theorem read_fieldsObject (name : String) : (fieldsObject db tableId).read name =
    (db.fieldNamed tableId name).elim
      (.other (FieldsObject.inheritsTruthy ((db.fieldNamed tableId PROTO).map fieldRule) name))
      fun f => .rule (fieldRule f) := by
  rw [(fieldsObject_holds db tableId).read, lastRule_map, lastRule_map]
  unfold TenantSchema.fieldNamed
  cases ((db.fieldsOf tableId).filter fun f => f.slug == name).getLast? with
  | none => rfl
  | some f => rfl

/-- A rule has no property named as one of `Object.prototype`. -/
theorem lookup_properties (rule : FieldValidationRule) :
    (rule.properties.lookup name).getD (OBJECT_PROTOTYPE.contains name) = true ↔
      name ∈ OBJECT_PROTOTYPE ∨ name ∈ (rule.properties.filter Prod.snd).map Prod.fst := by
  have hnodup : (rule.properties.map Prod.fst).Nodup := by
    simp [FieldValidationRule.properties]
  have hapart : ∀ property ∈ rule.properties, property.1 ∉ OBJECT_PROTOTYPE := by
    simp [FieldValidationRule.properties, OBJECT_PROTOTYPE]
  have hmem : name ∈ (rule.properties.filter Prod.snd).map Prod.fst ↔
      (name, true) ∈ rule.properties := by
    constructor
    · intro h
      obtain ⟨property, hproperty, rfl⟩ := List.mem_map.mp h
      obtain ⟨hproperty, htrue⟩ := List.mem_filter.mp hproperty
      exact htrue ▸ hproperty
    · exact fun h => List.mem_map.mpr ⟨(name, true), List.mem_filter.mpr ⟨h, rfl⟩, rfl⟩
  rw [hmem]
  cases hlookup : rule.properties.lookup name with
  | none =>
    have hno : (name, true) ∉ rule.properties := by
      intro h
      have hne := List.lookup_eq_none_iff.mp hlookup _ h
      simp at hne
    simp [hno]
  | some truthy =>
    obtain ⟨before, after, hproperties, -⟩ := List.lookup_eq_some_iff.mp hlookup
    have hproperty : (name, truthy) ∈ rule.properties := by simp [hproperties]
    have hno : name ∉ OBJECT_PROTOTYPE := hapart _ hproperty
    rw [Option.getD_some, or_iff_right hno]
    constructor
    · rintro rfl
      exact hproperty
    · exact fun h => congrArg Prod.snd (List.inj_on_of_nodup_map hnodup hproperty h rfl)

theorem inheritsTruthy_iff :
    FieldsObject.inheritsTruthy ((db.fieldNamed tableId PROTO).map fieldRule) name = true ↔
      name ∈ db.inheritedNames tableId := by
  unfold TenantSchema.inheritedNames
  cases db.fieldNamed tableId PROTO with
  | none =>
    simp [FieldsObject.inheritsTruthy, or_comm]
  | some f => exact (lookup_properties (fieldRule f)).trans List.mem_append.symm

end Names

/-! ### What each check lets through -/

section Checks

variable {js : JsRuntime} {cfg : Config} {fields : FieldsObject} {name : String}

theorem positiveInteger?_eq_some {value : QueryNumber} {n : ℕ} :
    value.positiveInteger? = some n ↔ 0 < n ∧ value = .number (.finite n) := by
  constructor
  · intro h
    unfold QueryNumber.positiveInteger? at h
    split at h
    · rename_i q
      split_ifs at h with hq
      obtain ⟨hden, hpos⟩ := hq
      have hn : q.num.toNat = n := Option.some.inj h
      have hnum : (n : ℤ) = q.num := by omega
      have hq : q = (n : ℚ) := by
        rw [← Rat.coe_int_num_of_den_eq_one hden, ← hnum]
        simp
      exact ⟨by omega, by rw [hq]⟩
    · cases h
  · rintro ⟨hpos, rfl⟩
    simp [QueryNumber.positiveInteger?, hpos]

theorem parsePositiveInteger_ok {value : Option QueryNumber} {d n : ℕ} {field : RowQueryParam} :
    parsePositiveInteger value d field = .ok n ↔
      (value = none ∧ n = d) ∨ 0 < n ∧ value = some (.number (.finite n)) := by
  cases value with
  | none =>
    constructor
    · intro h
      cases h
      exact .inl ⟨rfl, rfl⟩
    · rintro (⟨-, rfl⟩ | ⟨-, h⟩)
      · rfl
      · cases h
  | some value =>
    have hvalue := @positiveInteger?_eq_some value n
    unfold parsePositiveInteger
    dsimp only
    cases hint : value.positiveInteger? with
    | none =>
      rw [hint] at hvalue
      constructor
      · intro h
        cases h
      · rintro (⟨h, -⟩ | ⟨hpos, h⟩)
        · cases h
        · cases hvalue.mpr ⟨hpos, Option.some.inj h⟩
    | some k =>
      rw [hint, Option.some.injEq] at hvalue
      constructor
      · intro h
        cases h
        obtain ⟨hpos, rfl⟩ := hvalue.mp rfl
        exact .inr ⟨hpos, rfl⟩
      · rintro (⟨h, -⟩ | ⟨hpos, h⟩)
        · cases h
        · exact congrArg Except.ok (hvalue.mpr ⟨hpos, Option.some.inj h⟩)

theorem parsePositiveInteger_throws (value : Option QueryNumber) (d : ℕ) (field : RowQueryParam) :
    Throws QueryError.RowQuery (parsePositiveInteger value d field) := by
  unfold parsePositiveInteger
  split
  · exact .pure _
  · split
    · exact .pure _
    · exact .throw (.invalid _ _)

theorem sanitizeRowQueryIdentifier_ok {field : RowQueryParam} {out : String} :
    sanitizeRowQueryIdentifier name field = .ok out ↔ sanitizeIdentifier name = .ok name ∧
        out = name := by
  unfold sanitizeRowQueryIdentifier
  cases hs : sanitizeIdentifier name with
  | error message =>
    constructor
    · intro h
      cases h
    · rintro ⟨h, -⟩
      cases h
  | ok out' =>
    obtain ⟨rfl, -⟩ := sanitizeIdentifier_ok hs
    constructor
    · intro h
      cases h
      exact ⟨rfl, rfl⟩
    · rintro ⟨-, rfl⟩
      rfl

theorem sanitizeRowQueryIdentifier_throws (name : String) (field : RowQueryParam) :
    Throws QueryError.RowQuery (sanitizeRowQueryIdentifier name field) := by
  unfold sanitizeRowQueryIdentifier
  split
  · exact .pure _
  · exact .throw (.invalid _ _)

theorem resolvePageSize_ok {value : Option QueryNumber} {n : ℕ} :
    resolvePageSize cfg value = .ok n ↔
      ((value = none ∧ n = ROW_DEFAULT_PAGE_SIZE) ∨ 0 < n ∧ value = some (.number (.finite n))) ∧
        n ≤ cfg.DYNAMIC_TABLES_MAX_PAGE_SIZE := by
  unfold resolvePageSize
  rw [except_bind_ok, ← @parsePositiveInteger_ok value ROW_DEFAULT_PAGE_SIZE n .pageSize]
  constructor
  · rintro ⟨k, hk, h⟩
    split_ifs at h with hmax
    cases h
    exact ⟨hk, by omega⟩
  · rintro ⟨hn, hmax⟩
    refine ⟨n, hn, ?_⟩
    rw [if_neg (by omega)]
    rfl

theorem resolvePageSize_throws (value : Option QueryNumber) :
    Throws QueryError.RowQuery (resolvePageSize cfg value) := by
  refine .bind (parsePositiveInteger_throws _ _ _) fun n => ?_
  split
  · exact .throw (.pageSize _)
  · exact .pure _

/-- The name is read as a field and is an identifier. -/
def FieldsObject.Reads (fields : FieldsObject) (name : String) : Prop :=
  (fields.read name).truthy = true ∧ sanitizeIdentifier name = .ok name

theorem resolveSortBy_ok {sortBy out : Option String} :
    resolveSortBy fields sortBy = .ok out ↔ (∀ name, sortBy = some name → fields.Reads name) ∧
        out = sortBy := by
  cases sortBy with
  | none =>
    constructor
    · intro h
      cases h
      exact ⟨by simp, rfl⟩
    · rintro ⟨-, rfl⟩
      rfl
  | some name =>
    have hname := @sanitizeRowQueryIdentifier_ok name .sortBy
    unfold resolveSortBy FieldsObject.Reads
    dsimp only
    cases htruthy : (fields.read name).truthy with
    | false => simp [htruthy, MonadExcept.throw, throwThe, MonadExceptOf.throw]
    | true =>
      simp only [Bool.not_true, Bool.false_eq_true, if_false]
      cases hs : sanitizeRowQueryIdentifier name .sortBy with
      | error e =>
        constructor
        · intro h
          cases h
        · rintro ⟨h, -⟩
          have hok := hname.mpr ⟨(h name rfl).2, rfl⟩
          rw [hs] at hok
          cases hok
      | ok out' =>
        obtain ⟨hsan, rfl⟩ := hname.mp hs
        constructor
        · intro h
          cases h
          refine ⟨fun other hother => ?_, rfl⟩
          cases hother
          exact ⟨htruthy, hsan⟩
        · rintro ⟨-, rfl⟩
          rfl

theorem resolveSortBy_throws (fields : FieldsObject) (sortBy : Option String) :
    Throws QueryError.RowQuery (resolveSortBy fields sortBy) := by
  unfold resolveSortBy
  split
  · exact .pure _
  · split
    · exact .throw (.invalid _ _)
    · exact .map (sanitizeRowQueryIdentifier_throws _ _)

theorem resolveSortDirection_ok {sortDirection : Option String} {out : SortDirection} :
    resolveSortDirection sortDirection = .ok out ↔
      (sortDirection = none ∧ out = .asc) ∨ (sortDirection = some "asc" ∧ out = .asc) ∨
        sortDirection = some "desc" ∧ out = .desc := by
  cases sortDirection with
  | none =>
    constructor
    · intro h
      cases h
      exact .inl ⟨rfl, rfl⟩
    · rintro (⟨-, rfl⟩ | ⟨h, -⟩ | ⟨h, -⟩)
      · rfl
      · cases h
      · cases h
  | some direction =>
    unfold resolveSortDirection
    by_cases hasc : direction = "asc"
    · simp [hasc, pure, Except.pure, eq_comm]
    · by_cases hdesc : direction = "desc"
      · simp [hdesc, pure, Except.pure, eq_comm]
      · simp [hasc, hdesc, MonadExcept.throw, throwThe, MonadExceptOf.throw]

theorem resolveSortDirection_throws (sortDirection : Option String) :
    Throws QueryError.RowQuery (resolveSortDirection sortDirection) := by
  unfold resolveSortDirection
  split
  · exact .pure _
  · split_ifs
    · exact .pure _
    · exact .pure _
    · exact .throw (.invalid _ _)

theorem isNull_eq_true {v : Json} : isNull v = true ↔ v = .null := by
  cases v <;> simp [isNull]

/-- An entry of `filters` that the loop lets through. -/
def FieldsObject.Takes (js : JsRuntime) (fields : FieldsObject) (kv : String × Json) : Prop :=
  fields.Reads kv.1 ∧ (kv.2 ≠ .null → (fields.read kv.1).refuses js kv.2 = false)

theorem resolveFilter_ok (filters : List (String × Json)) (kv : String × Json)
    (out : List (String × Json)) :
    resolveFilter js fields filters kv = .ok out ↔ fields.Takes js kv ∧
        out = assignFilter filters kv := by
  unfold resolveFilter FieldsObject.Takes FieldsObject.Reads
  dsimp only
  cases htruthy : (fields.read kv.1).truthy with
  | false => simp [MonadExcept.throw, throwThe, MonadExceptOf.throw]
  | true =>
    by_cases hrefused : (!isNull kv.2 && (fields.read kv.1).refuses js kv.2) = true
    · rw [Bool.and_eq_true_iff, Bool.not_eq_true', ← Bool.not_eq_true, isNull_eq_true] at hrefused
      have hnull : isNull kv.2 = false := by
        rw [← Bool.not_eq_true, isNull_eq_true]
        exact hrefused.1
      simp [hrefused.2, hnull, hrefused.1, MonadExcept.throw, throwThe, MonadExceptOf.throw]
    · have hfits : kv.2 ≠ .null → (fields.read kv.1).refuses js kv.2 = false := by
        intro hne
        have hnull : isNull kv.2 = false := by
          rw [← Bool.not_eq_true, isNull_eq_true]
          exact hne
        simpa [hnull] using hrefused
      simp only [Bool.not_true, Bool.false_eq_true, if_false, if_neg hrefused, except_bind_ok]
      constructor
      · rintro ⟨field, hfield, h⟩
        obtain ⟨hsan, rfl⟩ := sanitizeRowQueryIdentifier_ok.mp hfield
        cases h
        exact ⟨⟨⟨trivial, hsan⟩, hfits⟩, rfl⟩
      · rintro ⟨⟨⟨-, hsan⟩, -⟩, rfl⟩
        exact ⟨kv.1, sanitizeRowQueryIdentifier_ok.mpr ⟨hsan, rfl⟩, rfl⟩

theorem resolveFilter_throws (fields : FieldsObject) (filters : List (String × Json))
    (kv : String × Json) :
    Throws QueryError.RowQuery (resolveFilter js fields filters kv) := by
  unfold resolveFilter
  dsimp only
  split
  · exact .throw (.invalid _ _)
  · split
    · exact .throw (.invalid _ _)
    · exact .bind (sanitizeRowQueryIdentifier_throws _ _) fun _ => .pure _

end Checks

/-! ### Acceptance -/

def DynamicTableRowQueryDto.entries (query : DynamicTableRowQueryDto) : List (String × Json) :=
  match query.filters with
  | some (.obj members) => members
  | _ => []

theorem DynamicTableRowQueryDto.entries_nodup (query : DynamicTableRowQueryDto) :
    (query.entries.map Prod.fst).Nodup := by
  unfold entries
  split
  · rename_i members hfilters
    exact query.keys_nodup members hfilters
  · exact List.nodup_nil

/-- The page size asked for. -/
def DynamicTableRowQueryDto.size (query : DynamicTableRowQueryDto) : ℕ :=
  (query.pageSize.bind QueryNumber.positiveInteger?).getD ROW_DEFAULT_PAGE_SIZE

def DynamicTableRowQueryDto.direction (query : DynamicTableRowQueryDto) : SortDirection :=
  if query.sortDirection = some "desc" then .desc else .asc

/-- What a query asks for apart from fields is in order. -/
structure ValidParameters (cfg : Config) (query : DynamicTableRowQueryDto) : Prop where
  page : ∀ value, query.page = some value → ∃ n : ℕ, 0 < n ∧ value = .number (.finite n)
  pageSize : ∀ value, query.pageSize = some value →
    ∃ n : ℕ, 0 < n ∧ n ≤ cfg.DYNAMIC_TABLES_MAX_PAGE_SIZE ∧ value = .number (.finite n)
  defaultSize : query.pageSize = none → ROW_DEFAULT_PAGE_SIZE ≤ cfg.DYNAMIC_TABLES_MAX_PAGE_SIZE
  sortDirection : ∀ direction, query.sortDirection = some direction → direction = "asc" ∨
      direction = "desc"
  isObject : ∀ filters, query.filters = some filters → filters = .null ∨
      ∃ members, filters = .obj members

/-- The query passes every check, a name that is read as a field counting as one. -/
structure Admitted (js : JsRuntime) (cfg : Config) (fields : FieldsObject)
    (query : DynamicTableRowQueryDto) : Prop extends ValidParameters cfg query where
  sortBy : ∀ name, query.sortBy = some name → fields.Reads name
  filters : ∀ kv ∈ query.entries, fields.Takes js kv

section Acceptance

variable {js : JsRuntime} {cfg : Config} {db : TenantSchema} {tableId : Uuid}
  {query : DynamicTableRowQueryDto}

theorem requestedFilters_ok {filters : Option Json} {members : List (String × Json)} :
    requestedFilters filters = .ok members ↔
      (filters = none ∧ members = []) ∨ (filters = some .null ∧ members = []) ∨
        filters = some (.obj members) := by
  unfold requestedFilters
  cases filters with
  | none => simp [pure, Except.pure, eq_comm]
  | some filters => cases filters <;> simp [pure, Except.pure, eq_comm, MonadExcept.throw, throwThe,
      MonadExceptOf.throw]

theorem requestedFilters_throws (filters : Option Json) :
    Throws QueryError.RowQuery (requestedFilters filters) := by
  unfold requestedFilters
  split
  · exact .pure _
  · exact .pure _
  · exact .pure _
  · exact .throw (.invalid _ _)

/-- What `resolveRowListQuery` resolves an admitted query to. -/
structure Resolves (fields : FieldsObject) (query : DynamicTableRowQueryDto)
    (r : ResolvedRowListQuery) :
    Prop where
  page : ∀ n : ℕ, query.page = some (.number (.finite n)) → r.page = n
  pageSize : r.pageSize = query.size
  positive : 0 < r.pageSize
  sortBy : r.sortBy = query.sortBy
  sortDirection : r.sortDirection = query.direction
  filters : r.filters = query.entries.foldl assignFilter []

theorem resolveRowListQuery_ok {fields : FieldsObject} {r : ResolvedRowListQuery}
    (h : resolveRowListQuery js cfg query fields = .ok r) :
    Admitted js cfg fields query ∧ Resolves fields query r := by
  obtain ⟨page, hpage, h⟩ := except_bind_ok.mp h
  obtain ⟨pageSize, hsize, h⟩ := except_bind_ok.mp h
  obtain ⟨sortBy, hsort, h⟩ := except_bind_ok.mp h
  obtain ⟨direction, hdirection, h⟩ := except_bind_ok.mp h
  obtain ⟨entries, hentries, h⟩ := except_bind_ok.mp h
  obtain ⟨filters, hfilters, h⟩ := except_bind_ok.mp h
  cases h
  have hpage := parsePositiveInteger_ok.mp hpage
  obtain ⟨hsize, hmax⟩ := resolvePageSize_ok.mp hsize
  obtain ⟨hreads, rfl⟩ := resolveSortBy_ok.mp hsort
  have hdirection := resolveSortDirection_ok.mp hdirection
  have hentries := requestedFilters_ok.mp hentries
  obtain ⟨htakes, hfilters⟩ := (except_foldlM_ok resolveFilter_ok).mp hfilters
  have hmembers : query.entries = entries := by
    unfold DynamicTableRowQueryDto.entries
    rcases hentries with ⟨hf, rfl⟩ | ⟨hf, rfl⟩ | hf
    · rw [hf]
    · rw [hf]
    · rw [hf]
  constructor
  · refine ⟨⟨?_, ?_, ?_, ?_, ?_⟩, hreads, ?_⟩
    · intro value hvalue
      rcases hpage with ⟨hnone, -⟩ | ⟨hpos, hsome⟩
      · cases hnone.symm.trans hvalue
      · exact ⟨page, hpos, Option.some.inj (hvalue.symm.trans hsome)⟩
    · intro value hvalue
      rcases hsize with ⟨hnone, -⟩ | ⟨hpos, hsome⟩
      · cases hnone.symm.trans hvalue
      · exact ⟨pageSize, hpos, hmax, Option.some.inj (hvalue.symm.trans hsome)⟩
    · intro hnone
      rcases hsize with ⟨-, rfl⟩ | ⟨-, hsome⟩
      · exact hmax
      · cases hnone.symm.trans hsome
    · intro d hd
      rcases hdirection with ⟨hnone, -⟩ | ⟨hsome, -⟩ | ⟨hsome, -⟩
      · cases hnone.symm.trans hd
      · exact .inl (Option.some.inj (hd.symm.trans hsome))
      · exact .inr (Option.some.inj (hd.symm.trans hsome))
    · intro f hf
      rcases hentries with ⟨hnone, -⟩ | ⟨hsome, -⟩ | hsome
      · cases hnone.symm.trans hf
      · exact .inl (Option.some.inj (hf.symm.trans hsome))
      · exact .inr ⟨entries, Option.some.inj (hf.symm.trans hsome)⟩
    · rw [hmembers]
      exact htakes
  · constructor
    · intro n hn
      rcases hpage with ⟨hnone, -⟩ | ⟨-, hsome⟩
      · cases hnone.symm.trans hn
      · simpa using hsome.symm.trans hn
    · unfold DynamicTableRowQueryDto.size
      rcases hsize with ⟨hnone, rfl⟩ | ⟨hpos, hsome⟩
      · rw [hnone]
        rfl
      · rw [hsome, Option.bind_some, positiveInteger?_eq_some.mpr ⟨hpos, rfl⟩]
        rfl
    · rcases hsize with ⟨-, rfl⟩ | ⟨hpos, -⟩
      · show 0 < ROW_DEFAULT_PAGE_SIZE
        decide
      · exact hpos
    · rfl
    · unfold DynamicTableRowQueryDto.direction
      rcases hdirection with ⟨hd, rfl⟩ | ⟨hd, rfl⟩ | ⟨hd, rfl⟩
      · simp [hd]
      · simp [hd]
      · simp [hd]
    · rw [hmembers]
      exact hfilters

theorem resolveRowListQuery_admitted {fields : FieldsObject} (h : Admitted js cfg fields query) :
    ∃ r, resolveRowListQuery js cfg query fields = .ok r := by
  obtain ⟨page, hpage⟩ : ∃ n, parsePositiveInteger query.page ROW_DEFAULT_PAGE .page = .ok n := by
    cases hp : query.page with
    | none => exact ⟨_, rfl⟩
    | some value =>
      obtain ⟨n, hpos, rfl⟩ := h.page value hp
      exact ⟨n, parsePositiveInteger_ok.mpr (.inr ⟨hpos, rfl⟩)⟩
  obtain ⟨size, hsize⟩ : ∃ n, resolvePageSize cfg query.pageSize = .ok n := by
    cases hp : query.pageSize with
    | none => exact ⟨_, resolvePageSize_ok.mpr ⟨.inl ⟨rfl, rfl⟩, h.defaultSize hp⟩⟩
    | some value =>
      obtain ⟨n, hpos, hmax, rfl⟩ := h.pageSize value hp
      exact ⟨n, resolvePageSize_ok.mpr ⟨.inr ⟨hpos, rfl⟩, hmax⟩⟩
  have hsort := resolveSortBy_ok.mpr ⟨h.sortBy, rfl⟩
  obtain ⟨direction, hdirection⟩ : ∃ d, resolveSortDirection query.sortDirection = .ok d := by
    cases hd : query.sortDirection with
    | none => exact ⟨.asc, rfl⟩
    | some d =>
      rcases h.sortDirection d hd with rfl | rfl
      · exact ⟨.asc, rfl⟩
      · exact ⟨.desc, rfl⟩
  have hentries : requestedFilters query.filters = .ok query.entries := by
    rw [requestedFilters_ok]
    unfold DynamicTableRowQueryDto.entries
    cases hf : query.filters with
    | none => exact .inl ⟨rfl, rfl⟩
    | some filters =>
      rcases h.isObject filters hf with rfl | ⟨members, rfl⟩
      · exact .inr (.inl ⟨rfl, rfl⟩)
      · exact .inr (.inr rfl)
  have hfilters := (except_foldlM_ok resolveFilter_ok).mpr
    ⟨h.filters, (rfl : query.entries.foldl assignFilter [] = _)⟩
  refine ⟨_, except_bind_ok.mpr ⟨page, hpage, except_bind_ok.mpr ⟨size, hsize, except_bind_ok.mpr
    ⟨_, hsort, except_bind_ok.mpr ⟨direction, hdirection, except_bind_ok.mpr ⟨_, hentries,
      except_bind_ok.mpr ⟨_, hfilters, rfl⟩⟩⟩⟩⟩⟩⟩

theorem resolveRowListQuery_throws (fields : FieldsObject) :
    Throws QueryError.RowQuery (resolveRowListQuery js cfg query fields) := by
  refine .bind (parsePositiveInteger_throws _ _ _) fun _ => ?_
  refine .bind (resolvePageSize_throws _) fun _ => ?_
  refine .bind (resolveSortBy_throws _ _) fun _ => ?_
  refine .bind (resolveSortDirection_throws _) fun _ => ?_
  refine .bind (requestedFilters_throws _) fun _ => ?_
  exact .bind (.foldlM (resolveFilter_throws fields) _ _) fun _ => .pure _

theorem foldl_assignFilter {entries filters : List (String × Json)}
    (hnodup : (entries.map Prod.fst).Nodup)
    (hnew : ∀ kv ∈ entries, kv.1 ∉ filters.map Prod.fst) :
    entries.foldl assignFilter filters = filters ++ entries.filter fun kv => kv.1 ≠ PROTO := by
  induction entries generalizing filters with
  | nil => simp
  | cons kv entries ih =>
    rw [List.map_cons, List.nodup_cons] at hnodup
    have hrest := fun other hother => hnew other (List.mem_cons_of_mem kv hother)
    rw [List.foldl_cons, List.filter_cons]
    by_cases hproto : kv.1 = PROTO
    · have hassign : assignFilter filters kv = filters := if_pos hproto
      rw [hassign, ih hnodup.2 hrest]
      simp [hproto]
    · have hfresh : (filters.any fun other => other.1 == kv.1) = false := by
        have hkv := hnew kv List.mem_cons_self
        rw [List.any_eq_false]
        intro other hother heq
        exact hkv (List.mem_map.mpr ⟨other, hother, beq_iff_eq.mp heq⟩)
      have hassign : assignFilter filters kv = filters ++ [kv] := by
        rw [assignFilter, if_neg hproto, hfresh]
        rfl
      rw [hassign, ih hnodup.2]
      · simp [hproto]
      · intro other hother hmem
        rw [List.map_append, List.mem_append] at hmem
        rcases hmem with hmem | hmem
        · exact hrest other hother hmem
        · have hkey : other.1 = kv.1 := List.mem_singleton.mp hmem
          exact hnodup.1 (List.mem_map.mpr ⟨other, hother, hkey⟩)

/-- `resolveRowListQuery` succeeds only on names and values of the table's fields, reports
anything else as a 400 of the row query, builds no statement then, and filters on what it
was given. -/
structure QueryJudged (js : JsRuntime) (cfg : Config) (db : TenantSchema) (tableRow : MetaTable)
    (query : DynamicTableRowQueryDto) : Prop where
  names : ∀ r, resolveRowListQuery js cfg query (fieldsObject db tableRow.id) = .ok r →
    (∀ name, query.sortBy = some name → name ∈ db.fieldSlugs tableRow.id) ∧
    ∀ kv ∈ query.entries, ∃ f ∈ db.fieldsOf tableRow.id, f.slug = kv.1 ∧
      (kv.2 ≠ .null → OfType js f.dataType kv.2)
  refused : ∀ e, resolveRowListQuery js cfg query (fieldsObject db tableRow.id) = .error e →
    e.RowQuery ∧ listRowsQueries js cfg db tableRow query = .error e
  filters : ∀ r, resolveRowListQuery js cfg query (fieldsObject db tableRow.id) = .ok r →
    r.filters = query.entries

/-- The names of `sortBy` and of the filters. -/
def DynamicTableRowQueryDto.Requests (query : DynamicTableRowQueryDto) (name : String) : Prop :=
  query.sortBy = some name ∨ name ∈ query.entries.map Prod.fst

/-- The names are identifiers that are fields or inherited, and are filtered by a value of the
field's type, by null where there is no field. -/
structure KnownNames (js : JsRuntime) (db : TenantSchema) (tableId : Uuid)
    (query : DynamicTableRowQueryDto) : Prop where
  identifiers : ∀ name, query.Requests name → sanitizeIdentifier name = .ok name
  known : ∀ name, query.Requests name →
    name ∈ db.fieldSlugs tableId ∨ name ∈ db.inheritedNames tableId
  typed : ∀ kv ∈ query.entries, kv.2 ≠ .null →
    ∃ f, db.fieldNamed tableId kv.1 = some f ∧ OfType js f.dataType kv.2

/-- The query asks for an inherited name that is no field, or for a filter on `__proto__`, and
there is nothing else to refuse it for. -/
structure InheritedRequested (js : JsRuntime) (cfg : Config) (db : TenantSchema) (tableId : Uuid)
    (query : DynamicTableRowQueryDto) : Prop where
  parameters : ValidParameters cfg query
  names : KnownNames js db tableId query
  inherited : (∃ name, query.Requests name ∧ name ∈ db.inheritedNames tableId ∧
    name ∉ db.fieldSlugs tableId) ∨ PROTO ∈ query.entries.map Prod.fst

/-- A name is read as a field when it is one, or is inherited. -/
theorem reads_iff {name : String} : (fieldsObject db tableId).Reads name ↔
    sanitizeIdentifier name = .ok name ∧
      (name ∈ db.fieldSlugs tableId ∨ name ∈ db.inheritedNames tableId) := by
  unfold FieldsObject.Reads
  rw [read_fieldsObject, and_comm]
  refine and_congr_right fun _ => ?_
  cases hnamed : db.fieldNamed tableId name with
  | none =>
    have hno := fieldNamed_none.mp hnamed
    rw [Option.elim_none, or_iff_right hno]
    exact inheritsTruthy_iff
  | some f =>
    obtain ⟨hf, hslug⟩ := fieldNamed_some hnamed
    rw [Option.elim_some]
    exact ⟨fun _ => .inl (List.mem_map.mpr ⟨f, hf, hslug⟩), fun _ => rfl⟩

theorem refuses_eq_false_iff {kv : String × Json} (hv : kv.2 ≠ .null) :
    ((fieldsObject db tableId).read kv.1).refuses js kv.2 = false ↔
      ∃ f, db.fieldNamed tableId kv.1 = some f ∧ OfType js f.dataType kv.2 := by
  rw [read_fieldsObject]
  cases db.fieldNamed tableId kv.1 with
  | none => simp [Property.refuses]
  | some f =>
    have htype : checkFieldType js (fieldRule f) kv.2 = none ↔ OfType js f.dataType kv.2 :=
      checkFieldType_eq_none hv
    rw [Option.elim_some]
    simp only [Property.refuses, Option.isSome_eq_false_iff, Option.isNone_iff_eq_none, htype,
      Option.some.injEq, exists_eq_left']

theorem admitted_iff : Admitted js cfg (fieldsObject db tableId) query ↔
    ValidParameters cfg query ∧ KnownNames js db tableId query := by
  constructor
  · intro h
    have hreads (name : String) (hname : query.Requests name) :
        (fieldsObject db tableId).Reads name := by
      rcases hname with hsort | hfilter
      · exact h.sortBy name hsort
      · obtain ⟨kv, hkv, rfl⟩ := List.mem_map.mp hfilter
        exact (h.filters kv hkv).1
    refine ⟨h.toValidParameters, fun name hname => (reads_iff.mp (hreads name hname)).1,
      fun name hname => (reads_iff.mp (hreads name hname)).2, fun kv hkv hv => ?_⟩
    exact (refuses_eq_false_iff hv).mp ((h.filters kv hkv).2 hv)
  · rintro ⟨hparameters, hnames⟩
    have hreads (name : String) (hname : query.Requests name) :
        (fieldsObject db tableId).Reads name :=
      reads_iff.mpr ⟨hnames.identifiers name hname, hnames.known name hname⟩
    refine ⟨hparameters, fun name hname => hreads name (.inl hname), fun kv hkv => ⟨?_, fun hv => ?_⟩⟩
    · exact hreads kv.1 (.inr (List.mem_map.mpr ⟨kv, hkv, rfl⟩))
    · exact (refuses_eq_false_iff hv).mpr (hnames.typed kv hkv hv)

/-- The filters are the entries but those on `__proto__`. -/
theorem resolvedFilters {fields : FieldsObject} {r : ResolvedRowListQuery}
    (hr : resolveRowListQuery js cfg query fields = .ok r) :
    r.filters = query.entries.filter fun kv => kv.1 ≠ PROTO := by
  obtain ⟨-, hresolves⟩ := resolveRowListQuery_ok hr
  rw [hresolves.filters, foldl_assignFilter query.entries_nodup (by simp), List.nil_append]

theorem resolvedFilters_eq_entries {fields : FieldsObject} {r : ResolvedRowListQuery}
    (hr : resolveRowListQuery js cfg query fields = .ok r) :
    r.filters = query.entries ↔ PROTO ∉ query.entries.map Prod.fst := by
  rw [resolvedFilters hr, List.filter_eq_self]
  constructor
  · intro h hproto
    obtain ⟨kv, hkv, hname⟩ := List.mem_map.mp hproto
    exact of_decide_eq_true (h kv hkv) hname
  · intro hproto kv hkv
    exact decide_eq_true fun hname => hproto (List.mem_map.mpr ⟨kv, hkv, hname⟩)

variable {tableRow : MetaTable}

/-- A query that is judged as it should be asks for no inherited name that is let through. -/
theorem QueryJudged.not_inherited (h : QueryJudged js cfg db tableRow query) :
    ¬ InheritedRequested js cfg db tableRow.id query := by
  rintro ⟨hparameters, hnames, hinherited⟩
  obtain ⟨r, hr⟩ := resolveRowListQuery_admitted (admitted_iff.mpr ⟨hparameters, hnames⟩)
  obtain ⟨hsort, hfilters⟩ := h.names r hr
  rcases hinherited with ⟨name, hname | hname, -, hno⟩ | hproto
  · exact hno (hsort name hname)
  · obtain ⟨kv, hkv, rfl⟩ := List.mem_map.mp hname
    obtain ⟨f, hf, hslug, -⟩ := hfilters kv hkv
    exact hno (List.mem_map.mpr ⟨f, hf, hslug⟩)
  · exact (resolvedFilters_eq_entries hr).mp (h.filters r hr) hproto

/-- Where no inherited name is let through, the names of a resolved query are fields. -/
theorem resolved_names (h : ¬ InheritedRequested js cfg db tableId query) {r : ResolvedRowListQuery}
    (hr : resolveRowListQuery js cfg query (fieldsObject db tableId) = .ok r) :
    KnownNames js db tableId query ∧ (∀ name, query.Requests name → name ∈ db.fieldSlugs tableId) ∧
      PROTO ∉ query.entries.map Prod.fst := by
  obtain ⟨hadmitted, -⟩ := resolveRowListQuery_ok hr
  obtain ⟨hparameters, hknown⟩ := admitted_iff.mp hadmitted
  refine ⟨hknown, fun name hname => ?_, fun hproto => h ⟨hparameters, hknown, .inr hproto⟩⟩
  by_contra hno
  have hinherited := (hknown.known name hname).resolve_left hno
  exact h ⟨hparameters, hknown, .inl ⟨name, hname, hinherited, hno⟩⟩

theorem KnownNames.typed_field (h : KnownNames js db tableId query)
    (hslugs : ∀ name, query.Requests name → name ∈ db.fieldSlugs tableId) {kv : String × Json}
    (hkv : kv ∈ query.entries) :
    ∃ f ∈ db.fieldsOf tableId, f.slug = kv.1 ∧ (kv.2 ≠ .null → OfType js f.dataType kv.2) := by
  by_cases hv : kv.2 = .null
  · have hslug := hslugs kv.1 (.inr (List.mem_map.mpr ⟨kv, hkv, rfl⟩))
    obtain ⟨f, hf, hslug⟩ := List.mem_map.mp hslug
    exact ⟨f, hf, hslug, fun hne => absurd hv hne⟩
  · obtain ⟨f, hnamed, htype⟩ := h.typed kv hkv hv
    obtain ⟨hf, hslug⟩ := fieldNamed_some hnamed
    exact ⟨f, hf, hslug, fun _ => htype⟩

end Acceptance

/-- The resolver meets its contract exactly when no inherited name is asked for, or there is
something else to refuse the query for. -/
theorem row_query_acceptance (js : JsRuntime) (cfg : Config) (db : TenantSchema)
    (tableRow : MetaTable)
    (query : DynamicTableRowQueryDto) :
    QueryJudged js cfg db tableRow query ↔ ¬ InheritedRequested js cfg db tableRow.id query := by
  refine ⟨QueryJudged.not_inherited, fun h => ?_⟩
  constructor
  · intro r hr
    obtain ⟨hknown, hslugs, -⟩ := resolved_names h hr
    exact ⟨fun name hname => hslugs name (.inl hname), fun kv hkv => hknown.typed_field hslugs hkv⟩
  · intro e he
    refine ⟨resolveRowListQuery_throws _ e he, ?_⟩
    unfold listRowsQueries
    dsimp only
    rw [he]
    rfl
  · intro r hr
    obtain ⟨-, -, hproto⟩ := resolved_names h hr
    exact (resolvedFilters_eq_entries hr).mpr hproto

/-! ### Sorting by `constructor` -/

theorem no_filters (members : List (String × Json))
    (h : (none : Option Json) = some (.obj members)) :
    (members.map Prod.fst).Nodup := by
  cases h

def sortedBy (name : String) : DynamicTableRowQueryDto :=
  { page := none, pageSize := none, sortBy := some name, sortDirection := none, filters := none
    keys_nodup := no_filters }

/-- A table has the one field `title`, and `sortBy=constructor` is accepted. -/
theorem inherited_sort_admitted : ¬ ∀ (js : JsRuntime) (cfg : Config) (db : TenantSchema)
    (tableRow : MetaTable) (query : DynamicTableRowQueryDto),
    QueryJudged js cfg db tableRow query := by
  intro hall
  have hrun : ((runAll (step plainEnv) (provisioned "tenant_a" fun _ => [])
      (requiredFieldRun "title")).any fun w => !(w.db.fieldSlugs 1).contains "constructor" &&
        (resolveRowListQuery plainEnv.js {} (sortedBy "constructor")
            (fieldsObject w.db 1)).isOk) = true := by
    decide +kernel
  obtain ⟨w, -, htest⟩ := (Option.any_eq_true _ _).mp hrun
  obtain ⟨hno, haccepted⟩ := Bool.and_eq_true_iff.mp htest
  let orders : MetaTable :=
    { id := 1, name := "orders", slug := "orders", description := none, ownerColumn := none }
  have hjudged := hall plainEnv.js {} w.db orders (sortedBy "constructor")
  cases hresult : resolveRowListQuery plainEnv.js {} (sortedBy "constructor")
      (fieldsObject w.db 1) with
  | error e =>
    rw [hresult] at haccepted
    cases haccepted
  | ok r =>
    have hslug := (hjudged.names r hresult).1 "constructor" rfl
    simp [orders, hslug] at hno

end Flexi.DynamicTables
