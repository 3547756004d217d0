import Flexi.DynamicTables.FieldRows

/-!
# Which payloads are accepted

A payload is good for a table when each declared field finds a value it can take. The
service looks at the own keys of `schema.fields`, and the slug `__proto__` never becomes
one: assigning it sets the prototype of the object.
-/

namespace Flexi.DynamicTables
open Flexi.Library Flexi.Tenants

/-! ### What a table asks of a payload -/

/-- `v` is a value of the data type. -/
def OfType (js : JsRuntime) : FieldDataType → Json → Prop
  | .STRING, v | .TEXT, v | .EMAIL, v | .URL, v | .SELECT, v => ∃ s, v = .str s
  | .NUMBER, v => ∃ n, v = .num n
  | .BOOLEAN, v => ∃ b, v = .bool b
  | .DATE, v | .DATETIME, v => ∃ s, v = .str s ∧ (js.dateParse s).isSome
  | .JSON, v => (∃ xs, v = .arr xs) ∨ ∃ members, v = .obj members
  | .RELATION, v => ∃ i : ℤ, v = .num (.finite i)

/-- `v` respects the bounds of the rule: lengths bound strings, the others numbers, and
`enum` lists what there is. -/
structure Respects (rule : FieldValidationRule) (v : Json) : Prop where
  minLength : ∀ s bound, v = .str s → rule.minLength = some bound →
    (JsNumber.finite (utf16Length s)).lt bound = false
  maxLength : ∀ s bound, v = .str s → rule.maxLength = some bound →
    bound.lt (.finite (utf16Length s)) = false
  min : ∀ n bound, v = .num n → rule.min = some bound → n.lt bound = false
  max : ∀ n bound, v = .num n → rule.max = some bound → bound.lt n = false
  enum : ∀ options, rule.enum = some options → ∃ o ∈ options, o.sameValueZero v = true

/-- The payload has for the field what it takes; `isPartial` is the updates' leave to say
nothing of it. -/
structure Fits (js : JsRuntime) (payload : Json) (isPartial : Bool) (f : MetaField) : Prop where
  absent : payload.get? f.slug = none → f.required = true → isPartial = true
  null : payload.get? f.slug = some .null → f.required = false
  value : ∀ v, payload.get? f.slug = some v → v ≠ .null →
    OfType js f.dataType v ∧ Respects (fieldRule f) v

/-- The rows of `tableId`. -/
def TenantSchema.fieldsOf (db : TenantSchema) (tableId : Uuid) : List MetaField :=
  db.metaFields.filter fun f => f.tableId == tableId

/-! ### The two halves of a row write -/

/-- The payload's half of `createRow` and of `updateRow`: what is handed to the database. -/
def rowPayload (js : JsRuntime) (schema : TableValidationSchema) (payload : Json)
    (isPartial : Bool) :
    Except HttpError (List (String × Json)) := do
  let data ← pickKnownFields schema payload
  validateRowPayload js schema data isPartial
  pure data

/-- The insert of `createRow`. -/
def insertRow (pg : Postgres) (db : TenantSchema) (tableName tenantUserId : String)
    (data : List (String × Json)) : Except HttpError TenantSchema :=
  match db.tables.lookup tableName with
  | none => throw .unexpected
  | some t =>
    let values := data.filter
        (fun kv => kv.1 != OWNER_COLUMN) ++ [(OWNER_COLUMN, Json.str tenantUserId)]
    do
      let row ← values.foldlM (writeCell pg t) (defaultRow pg t)
      if !notNullHolds t row then throw .unexpected
      else if !relationsResolve db t row (values.map Prod.fst) then throw reshapeForeignKeyViolation
      else pure (db.setTable tableName { t with rows := t.rows ++ [row], nextId := t.nextId + 1 })

/-! ### The checks of one field -/

section Checks

variable {js : JsRuntime} {rule : FieldValidationRule} {v : Json}

theorem isInteger_iff {n : JsNumber} : n.isInteger = true ↔ ∃ i : ℤ, n = .finite i := by
  cases n with
  | finite q =>
    rw [JsNumber.isInteger, beq_iff_eq]
    constructor
    · intro h
      exact ⟨q.num, congrArg _ (Rat.den_eq_one_iff q |>.mp h).symm⟩
    · rintro ⟨i, hi⟩
      cases hi
      exact Rat.den_intCast i
  | infinite negative => simp [JsNumber.isInteger]

theorem checkFieldType_eq_none (hv : v ≠ .null) :
    checkFieldType js rule v = none ↔ OfType js rule.dataType v := by
  unfold checkFieldType OfType
  cases rule.dataType with
  | DATE | DATETIME => cases v <;> simp [Option.isSome_iff_ne_none]
  | RELATION => cases v <;> simp [isInteger_iff]
  | JSON => cases v <;> simp at hv ⊢
  | _ => cases v <;> simp

theorem checkField_some {data : List (String × Json)} {isPartial : Bool} (hv : v ≠ .null)
    (hfind : data.find? (fun kv => kv.1 == rule.slug) = some (rule.slug, v)) :
    checkField js data isPartial rule = (checkFieldType js rule v).elim
        (checkFieldConstraints js rule v)
      fun typeError => [rule.slug ++ ": " ++ typeError] := by
  rw [checkField, hfind]
  cases v with
  | null => exact absurd rfl hv
  | _ =>
    dsimp only
    cases checkFieldType js rule _ <;> rfl

theorem checkFieldConstraints_eq_nil (js : JsRuntime) :
    checkFieldConstraints js rule v = [] ↔ Respects rule v := by
  unfold checkFieldConstraints
  simp only [List.append_eq_nil_iff]
  constructor
  · rintro ⟨⟨⟨⟨hminLength, hmaxLength⟩, hmin⟩, hmax⟩, henum⟩
    constructor
    · rintro s bound rfl hbound
      simpa [hbound] using hminLength
    · rintro s bound rfl hbound
      simpa [hbound] using hmaxLength
    · rintro n bound rfl hbound
      simpa [hbound] using hmin
    · rintro n bound rfl hbound
      simpa [hbound] using hmax
    · intro options hoptions
      simpa [hoptions] using henum
  · intro h
    refine ⟨⟨⟨⟨?_, ?_⟩, ?_⟩, ?_⟩, ?_⟩
    · cases v with
      | str s => cases hbound : rule.minLength <;> simp [h.minLength s _ rfl, hbound]
      | _ => rfl
    · cases v with
      | str s => cases hbound : rule.maxLength <;> simp [h.maxLength s _ rfl, hbound]
      | _ => rfl
    · cases v with
      | num n => cases hbound : rule.min <;> simp [h.min n _ rfl, hbound]
      | _ => rfl
    · cases v with
      | num n => cases hbound : rule.max <;> simp [h.max n _ rfl, hbound]
      | _ => rfl
    · cases hoptions : rule.enum with
      | none => rfl
      | some options => simpa using h.enum options hoptions

end Checks

/-! ### The generated schema -/

/-- The slug that is no own key of a plain object. -/
def PROTO : String := "__proto__"

theorem foldl_assignRule (rules : List FieldValidationRule)
    (fields : List (String × FieldValidationRule))
    (hnodup : (rules.map FieldValidationRule.slug).Nodup)
    (hnew : ∀ rule ∈ rules, rule.slug ∉ fields.map Prod.fst) :
    rules.foldl assignRule fields =
      fields ++ (rules.filter fun rule => rule.slug ≠ PROTO).map fun rule => (rule.slug, rule) := by
  induction rules generalizing fields with
  | nil => simp
  | cons rule rules ih =>
    rw [List.map_cons, List.nodup_cons] at hnodup
    have hfresh := hnew rule List.mem_cons_self
    have hrest := fun r hr => hnew r (List.mem_cons_of_mem rule hr)
    rw [List.foldl_cons, List.filter_cons]
    by_cases hproto : rule.slug = PROTO
    · have hassign : assignRule fields rule = fields := if_pos hproto
      rw [hassign, ih fields hnodup.2 hrest]
      simp [hproto]
    · have hassign : assignRule fields rule = fields ++ [(rule.slug, rule)] := by
        have hany : (fields.any fun kv => kv.1 == rule.slug) = false := by
          refine List.any_eq_false.mpr fun kv hkv heq => hfresh ?_
          exact List.mem_map.mpr ⟨kv, hkv, beq_iff_eq.mp heq⟩
        rw [assignRule, if_neg (show rule.slug ≠ "__proto__" from hproto), hany]
        rfl
      rw [hassign, ih _ hnodup.2 fun r hr hmem => ?_]
      · simp [hproto]
      · rw [List.map_append, List.mem_append] at hmem
        rcases hmem with hmem | hmem
        · exact hrest r hr hmem
        · have hslug : r.slug = rule.slug := List.mem_singleton.mp hmem
          exact hnodup.1 (List.mem_map.mpr ⟨r, hr, hslug⟩)

section Generated

variable {js : JsRuntime} {db : TenantSchema} {tableId : Uuid} {members : List (String × Json)}
  {isPartial : Bool}

theorem buildValidationSchema_fields (hk : db.Keyed) (tableId : Uuid) :
    (buildValidationSchema db tableId).fields =
      ((db.fieldsOf tableId).filter fun f => f.slug ≠ PROTO).map fun f => (f.slug, fieldRule f) :=
        by
  have hslugs : ((db.fieldsOf tableId).map fieldRule).map FieldValidationRule.slug =
      db.fieldSlugs tableId := by
    rw [List.map_map]
    rfl
  show ((db.fieldsOf tableId).map fieldRule).foldl assignRule [] = _
  rw [foldl_assignRule _ _ (by rw [hslugs]; exact hk tableId) (fun _ _ => List.not_mem_nil),
    List.nil_append, List.filter_map, List.map_map]
  rfl

theorem mem_schema_fields (hk : db.Keyed) {kv : String × FieldValidationRule} :
    kv ∈ (buildValidationSchema db tableId).fields ↔
      ∃ f ∈ db.fieldsOf tableId, f.slug ≠ PROTO ∧ kv = (f.slug, fieldRule f) := by
  rw [buildValidationSchema_fields hk, List.mem_map]
  constructor
  · rintro ⟨f, hf, rfl⟩
    obtain ⟨hf, hproto⟩ := List.mem_filter.mp hf
    exact ⟨f, hf, of_decide_eq_true hproto, rfl⟩
  · rintro ⟨f, hf, hproto, rfl⟩
    exact ⟨f, List.mem_filter.mpr ⟨hf, decide_eq_true hproto⟩, rfl⟩

theorem schema_keys_nodup (hk : db.Keyed) :
    ((buildValidationSchema db tableId).fields.map Prod.fst).Nodup := by
  rw [buildValidationSchema_fields hk, List.map_map]
  have hsub : (((db.fieldsOf tableId).filter fun f => f.slug ≠ PROTO).map MetaField.slug).Sublist
      (db.fieldSlugs tableId) := List.filter_sublist.map _
  exact hsub.nodup (hk tableId)

/-- What `pickKnownFields` takes out of the payload. -/
def pickedFields (db : TenantSchema) (tableId : Uuid) (members : List (String × Json)) :
    List (String × Json) :=
  (buildValidationSchema db tableId).fields.filterMap fun kv =>
    ((Json.obj members).get? kv.1).map fun v => (kv.1, v)

theorem mem_pickedFields (hk : db.Keyed) {slug : String} {v : Json} :
    (slug, v) ∈ pickedFields db tableId members ↔
      slug ∈ db.fieldSlugs tableId ∧ slug ≠ PROTO ∧ (Json.obj members).get? slug = some v := by
  rw [pickedFields, List.mem_filterMap]
  constructor
  · rintro ⟨kv, hkv, hv⟩
    obtain ⟨f, hf, hproto, rfl⟩ := (mem_schema_fields hk).mp hkv
    obtain ⟨v', hget, heq⟩ := Option.map_eq_some_iff.mp hv
    cases heq
    exact ⟨List.mem_map.mpr ⟨f, hf, rfl⟩, hproto, hget⟩
  · rintro ⟨hslug, hproto, hget⟩
    obtain ⟨f, hf, rfl⟩ := List.mem_map.mp hslug
    exact ⟨(f.slug, fieldRule f), (mem_schema_fields hk).mpr ⟨f, hf, hproto, rfl⟩,
      by rw [hget]; rfl⟩

theorem pickedFields_nodup (hk : db.Keyed) :
    ((pickedFields db tableId members).map Prod.fst).Nodup := by
  have hsub : ((pickedFields db tableId members).map Prod.fst).Sublist
      ((buildValidationSchema db tableId).fields.map Prod.fst) := by
    rw [pickedFields]
    induction (buildValidationSchema db tableId).fields with
    | nil => exact .slnil
    | cons kv fields ih =>
      rw [List.filterMap_cons]
      cases (Json.obj members).get? kv.1 with
      | none => exact ih.cons _
      | some v => exact ih.cons_cons _
  exact hsub.nodup (schema_keys_nodup hk)

theorem find?_pickedFields (hk : db.Keyed) {f : MetaField} (hf : f ∈ db.fieldsOf tableId)
    (hproto : f.slug ≠ PROTO) :
    (pickedFields db tableId members).find? (fun kv => kv.1 == f.slug) =
      ((Json.obj members).get? f.slug).map fun v => (f.slug, v) := by
  cases hget : (Json.obj members).get? f.slug with
  | none =>
    refine List.find?_eq_none.mpr fun kv hkv heq => ?_
    have hmem := (mem_pickedFields hk).mp hkv
    rw [beq_iff_eq.mp heq, hget] at hmem
    cases hmem.2.2
  | some v =>
    have hmem : (f.slug, v) ∈ pickedFields db tableId members :=
      (mem_pickedFields hk).mpr ⟨List.mem_map.mpr ⟨f, hf, rfl⟩, hproto, hget⟩
    cases hfind : (pickedFields db tableId members).find? (fun kv => kv.1 == f.slug) with
    | none =>
      have hno := List.find?_eq_none.mp hfind (f.slug, v) hmem
      exact absurd BEq.rfl hno
    | some kv =>
      have hkv := (mem_pickedFields hk).mp (List.mem_of_find?_eq_some hfind)
      have hslug : kv.1 = f.slug := by simpa using List.find?_some hfind
      rw [hslug, hget] at hkv
      rw [Option.map_some, ← hslug, Option.some.inj hkv.2.2]

theorem checkField_eq_nil (hk : db.Keyed) {f : MetaField} (hf : f ∈ db.fieldsOf tableId)
    (hproto : f.slug ≠ PROTO) :
    checkField js (pickedFields db tableId members) isPartial (fieldRule f) = [] ↔
      Fits js (.obj members) isPartial f := by
  have hfind : (pickedFields db tableId members).find? (fun kv => kv.1 == (fieldRule f).slug) =
      ((Json.obj members).get? f.slug).map fun v => (f.slug, v) := find?_pickedFields hk hf hproto
  have hrequired : (fieldRule f).required = f.required := rfl
  by_cases hvalue : ∃ v, (Json.obj members).get? f.slug = some v ∧ v ≠ .null
  · obtain ⟨v, hget, hv⟩ := hvalue
    have hfits : Fits js (.obj members) isPartial f ↔ OfType js f.dataType v ∧
        Respects (fieldRule f) v := by
      constructor
      · exact fun h => h.value v hget hv
      · intro h
        constructor
        · intro hnone
          cases hget.symm.trans hnone
        · intro hnull
          exact absurd (Option.some.inj (hget.symm.trans hnull)) hv
        · intro v' hget' _
          cases hget.symm.trans hget'
          exact h
    have htype : checkFieldType js (fieldRule f) v = none ↔ OfType js f.dataType v :=
      checkFieldType_eq_none hv
    rw [hget] at hfind
    rw [hfits, checkField_some hv hfind, ← htype, ← checkFieldConstraints_eq_nil js]
    cases checkFieldType js (fieldRule f) v <;> simp
  · rw [checkField, hfind]
    cases hget : (Json.obj members).get? f.slug with
    | none =>
      rw [Option.map_none, hrequired]
      constructor
      · intro h
        constructor
        · intro _ hr
          simpa [hr] using h
        · intro hnull
          cases hget.symm.trans hnull
        · intro v hv
          cases hget.symm.trans hv
      · intro h
        cases hr : f.required with
        | false => rfl
        | true => simp [h.absent hget hr]
    | some v =>
      have hnull : v = .null := not_not.mp fun hne => hvalue ⟨v, hget, hne⟩
      subst hnull
      rw [Option.map_some, hrequired]
      constructor
      · intro h
        constructor
        · intro hnone
          cases hget.symm.trans hnone
        · intro _
          simpa using h
        · intro v hv hne
          exact absurd (Option.some.inj (hget.symm.trans hv)).symm hne
      · intro h
        simp [h.null hget]

/-- The checks look at every declared field but the one named `__proto__`. -/
theorem rowPayload_ok_iff (hk : db.Keyed) {data : List (String × Json)} :
    rowPayload js (buildValidationSchema db tableId) (.obj members) isPartial = .ok data ↔
      data = pickedFields db tableId members ∧
        ∀ f ∈ db.fieldsOf tableId, f.slug ≠ PROTO → Fits js (.obj members) isPartial f := by
  have hall : (buildValidationSchema db tableId).fields.flatMap
      (fun kv => checkField js (pickedFields db tableId members) isPartial kv.2) = [] ↔
      ∀ f ∈ db.fieldsOf tableId, f.slug ≠ PROTO → Fits js (.obj members) isPartial f := by
    rw [List.flatMap_eq_nil_iff]
    constructor
    · intro h f hf hproto
      exact (checkField_eq_nil hk hf hproto).mp
          (h _ ((mem_schema_fields hk).mpr ⟨f, hf, hproto, rfl⟩))
    · intro h kv hkv
      obtain ⟨f, hf, hproto, rfl⟩ := (mem_schema_fields hk).mp hkv
      exact (checkField_eq_nil hk hf hproto).mpr (h f hf hproto)
  have hvalid : validateRowPayload js (buildValidationSchema db tableId)
      (pickedFields db tableId members) isPartial = .ok () ↔
      (buildValidationSchema db tableId).fields.flatMap
        (fun kv => checkField js (pickedFields db tableId members) isPartial kv.2) = [] := by
    unfold validateRowPayload
    cases (buildValidationSchema db tableId).fields.flatMap
        (fun kv => checkField js (pickedFields db tableId members) isPartial kv.2) <;> simp
  rw [← hall, ← hvalid]
  show (validateRowPayload js (buildValidationSchema db tableId)
      (pickedFields db tableId members) isPartial >>=
    fun _ => pure (pickedFields db tableId members)) = .ok data ↔ _
  cases validateRowPayload js (buildValidationSchema db tableId)
      (pickedFields db tableId members) isPartial with
  | error e => simp [bind, Except.bind]
  | ok u => simp [bind, Except.bind, pure, Except.pure, eq_comm]

end Generated

/-! ### Acceptance -/

section Acceptance

variable {js : JsRuntime} {db : TenantSchema} {tableId : Uuid} {members : List (String × Json)}

theorem Fits.of_full {f : MetaField} {payload : Json} (h : Fits js payload false f) :
    Fits js payload true f where
  absent _ _ := rfl
  null := h.null
  value := h.value

/-- Both validations judge the payload by the table's fields, and what they let through is
the payload's own values of the declared slugs. -/
structure Judged (js : JsRuntime) (db : TenantSchema) (tableId : Uuid)
    (members : List (String × Json)) : Prop where
  create : (∃ data, rowPayload js (buildValidationSchema db tableId)
      (.obj members) false = .ok data) ↔
    ∀ f ∈ db.fieldsOf tableId, Fits js (.obj members) false f
  update : (∃ data, rowPayload js (buildValidationSchema db tableId)
      (.obj members) true = .ok data) ↔
    ∀ f ∈ db.fieldsOf tableId, Fits js (.obj members) true f
  data : ∀ isPartial data,
    rowPayload js (buildValidationSchema db tableId) (.obj members) isPartial = .ok data →
      (data.map Prod.fst).Nodup ∧ ∀ slug v, (slug, v) ∈ data ↔
        slug ∈ db.fieldSlugs tableId ∧ (Json.obj members).get? slug = some v

/-- The fields that the service sees. -/
def OthersFit (js : JsRuntime) (db : TenantSchema) (tableId : Uuid) (members : List (String × Json))
    (isPartial : Bool) : Prop :=
  ∀ f ∈ db.fieldsOf tableId, f.slug ≠ PROTO → Fits js (.obj members) isPartial f

/-- A field named `__proto__` has no say: the payload is refused anyway, or it leaves the
field out where it may. -/
def ProtoSilent (js : JsRuntime) (db : TenantSchema) (tableId : Uuid)
    (members : List (String × Json)) : Prop :=
  ∀ f ∈ db.fieldsOf tableId, f.slug = PROTO →
    if ((Json.obj members).get? PROTO).isSome then ¬OthersFit js db tableId members true
    else f.required = false ∨ ¬OthersFit js db tableId members false

theorem accepted_iff (hk : db.Keyed) {isPartial : Bool} :
    (∃ data, rowPayload js (buildValidationSchema db tableId) (.obj members) isPartial = .ok data) ↔
      OthersFit js db tableId members isPartial := by
  constructor
  · rintro ⟨data, h⟩
    exact ((rowPayload_ok_iff hk).mp h).2
  · intro h
    exact ⟨_, (rowPayload_ok_iff hk).mpr ⟨rfl, h⟩⟩

theorem judged_iff (hk : db.Keyed) : Judged js db tableId members ↔
    ProtoSilent js db tableId members := by
  have hall {isPartial : Bool} (h : ∀ f ∈ db.fieldsOf tableId, Fits js (.obj members) isPartial f) :
      OthersFit js db tableId members isPartial := fun f hf _ => h f hf
  constructor
  · intro h f hf hproto
    split
    · rename_i hsome
      intro hothers
      obtain ⟨v, hv⟩ := Option.isSome_iff_exists.mp hsome
      obtain ⟨data, hdata⟩ := (accepted_iff hk).mpr hothers
      have hmem := ((h.data true data hdata).2 PROTO v).mpr ⟨List.mem_map.mpr ⟨f, hf, hproto⟩, hv⟩
      rw [((rowPayload_ok_iff hk).mp hdata).1] at hmem
      exact ((mem_pickedFields hk).mp hmem).2.1 rfl
    · rename_i hnone
      by_contra hno
      obtain ⟨hrequired, hothers⟩ := not_or.mp hno
      have hfits := h.create.mp ((accepted_iff hk).mpr (not_not.mp hothers)) f hf
      have hget : (Json.obj members).get? f.slug = none := by
        rw [hproto]
        simpa using hnone
      cases hfits.absent hget (by simpa using hrequired)
  · intro h
    -- where the others fit, a silent field fits as well
    have hfull (hothers : OthersFit js db tableId members false) (f : MetaField)
        (hf : f ∈ db.fieldsOf tableId) : Fits js (.obj members) false f := by
      by_cases hproto : f.slug = PROTO
      · have hsilent := h f hf hproto
        split at hsilent
        · exact absurd (fun g hg hne => (hothers g hg hne).of_full) hsilent
        · rename_i hnone
          have hget : (Json.obj members).get? f.slug = none := by
            rw [hproto]
            simpa using hnone
          have hoptional : f.required = false := hsilent.elim id fun hno => absurd hothers hno
          constructor
          · intro _ hr
            rw [hoptional] at hr
            cases hr
          · intro _
            exact hoptional
          · intro v hv
            cases hget.symm.trans hv
      · exact hothers f hf hproto
    have hpart (hothers : OthersFit js db tableId members true) (f : MetaField)
        (hf : f ∈ db.fieldsOf tableId) :
        Fits js (.obj members) true f ∧ (f.slug = PROTO → (Json.obj members).get? PROTO = none) :=
          by
      by_cases hproto : f.slug = PROTO
      · have hsilent := h f hf hproto
        split at hsilent
        · exact absurd hothers hsilent
        · rename_i hnone
          have hget : (Json.obj members).get? PROTO = none := by simpa using hnone
          refine ⟨⟨fun _ _ => rfl, fun hnull => ?_, fun v hv => ?_⟩, fun _ => hget⟩
          · rw [hproto] at hnull
            cases hget.symm.trans hnull
          · rw [hproto] at hv
            cases hget.symm.trans hv
      · exact ⟨hothers f hf hproto, fun heq => absurd heq hproto⟩
    constructor
    · rw [accepted_iff hk]
      exact ⟨hfull, hall⟩
    · rw [accepted_iff hk]
      exact ⟨fun hothers f hf => (hpart hothers f hf).1, hall⟩
    · intro isPartial data hdata
      obtain ⟨rfl, hothers⟩ := (rowPayload_ok_iff hk).mp hdata
      refine ⟨pickedFields_nodup hk, fun slug v => ?_⟩
      rw [mem_pickedFields hk]
      constructor
      · exact fun hmem => ⟨hmem.1, hmem.2.2⟩
      · rintro ⟨hslug, hget⟩
        refine ⟨hslug, fun hproto => ?_, hget⟩
        obtain ⟨f, hf, rfl⟩ := List.mem_map.mp hslug
        have hothers' : OthersFit js db tableId members true := by
          intro g hg hne
          cases isPartial with
          | true => exact hothers g hg hne
          | false => exact (hothers g hg hne).of_full
        rw [hproto, (hpart hothers' f hf).2 hproto] at hget
        cases hget

end Acceptance

/-- In every run a table's payloads are judged by its fields exactly when a field named
`__proto__` has no say. -/
theorem row_payload_acceptance {env : Env} {schema : String} {rows : String → List Row} {w : World}
    (h : Reach (step env) (fun _ _ => True) (provisioned schema rows) w) (js : JsRuntime)
    (tableId : Uuid) (members : List (String × Json)) :
    Judged js w.db tableId members ↔ ProtoSilent js w.db tableId members :=
  judged_iff (keyed_reach h)

/-! ### A field named `__proto__` -/

theorem string_not_relation : FieldDataType.STRING ≠ .RELATION := by simp

def requiredField (name : String) : CreateTableDto :=
  { name := "orders", description := none, bytes := 60, fields_ne := List.cons_ne_nil _ _
    fields := [{ name := name, dataType := .STRING, required := some true, config := none,
                 not_relation := string_not_relation }] }

def requiredFieldRun (name : String) : List Event :=
  [.createTable (requiredField name), .attempt 0 []]

/-- The table's only field is required and named `name`. -/
def requires (name : String) (w : World) : Bool :=
  (w.db.fieldsOf 1).length == 1 && (w.db.fieldsOf 1).all fun f => f.slug == name && f.required

theorem row_payload_acceptance_title : ∃ w, runAll (step plainEnv)
    (provisioned "tenant_a" fun _ => [])
    (requiredFieldRun "title") = some w ∧ Judged plainEnv.js w.db 1 [("title", .str "Invoice")] :=
      by
  have hrun : ((runAll (step plainEnv) (provisioned "tenant_a" fun _ => [])
      (requiredFieldRun "title")).any (requires "title")) = true := by
    decide +kernel
  obtain ⟨w, hw, hrequires⟩ := (Option.any_eq_true _ _).mp hrun
  have hr : Reach (step plainEnv) (fun _ _ => True) (provisioned "tenant_a" fun _ => []) w :=
    .of_runAll (.of_labels (fun _ _ _ => trivial) _) hw
  refine ⟨w, hw, (row_payload_acceptance hr plainEnv.js 1 _).mpr fun f hf hproto => ?_⟩
  have hslug := List.all_eq_true.mp (Bool.and_eq_true_iff.mp hrequires).2 f hf
  rw [hproto] at hslug
  exact absurd hslug (by simp [PROTO])

/-- The empty payload lacks the required field and is accepted. -/
theorem required_proto_missing : ¬ ∀ (env : Env) (schema : String) (rows : String → List Row)
    (w : World),
    Reach (step env) (fun _ _ => True) (provisioned schema rows) w →
      ∀ (js : JsRuntime) (tableId : Uuid) (members : List (String × Json)),
          Judged js w.db tableId members := by
  intro hall
  have hrun : ((runAll (step plainEnv) (provisioned "tenant_a" fun _ => [])
      (requiredFieldRun PROTO)).any fun w => requires PROTO w &&
        (rowPayload plainEnv.js (buildValidationSchema w.db 1) (.obj []) false).isOk) = true := by
    decide +kernel
  obtain ⟨w, hw, htest⟩ := (Option.any_eq_true _ _).mp hrun
  obtain ⟨hrequires, haccepted⟩ := Bool.and_eq_true_iff.mp htest
  have hr : Reach (step plainEnv) (fun _ _ => True) (provisioned "tenant_a" fun _ => []) w :=
    .of_runAll (.of_labels (fun _ _ _ => trivial) _) hw
  obtain ⟨hone, hfield⟩ := Bool.and_eq_true_iff.mp hrequires
  obtain ⟨f, hf⟩ := List.length_eq_one_iff.mp (beq_iff_eq.mp hone)
  have hmem : f ∈ w.db.fieldsOf 1 := hf ▸ List.mem_singleton_self f
  obtain ⟨-, hrequired⟩ := Bool.and_eq_true_iff.mp (List.all_eq_true.mp hfield f hmem)
  have hjudged := hall plainEnv "tenant_a" (fun _ => []) w hr plainEnv.js 1 []
  cases hresult : rowPayload plainEnv.js (buildValidationSchema w.db 1) (.obj []) false with
  | error e =>
    rw [hresult] at haccepted
    cases haccepted
  | ok data => cases (hjudged.create.mp ⟨data, hresult⟩ f hmem).absent rfl hrequired

end Flexi.DynamicTables
