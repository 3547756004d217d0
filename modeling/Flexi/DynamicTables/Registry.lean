import Flexi.DynamicTables.Runs

/-!
# The registry of dynamic tables

Who owns which name: every `_meta_tables` row stands for the create-table job
that wrote it, slugs are unique, and a table a job created is registered under
that job's own row. This holds in every run, whatever the order of attempts.
-/

namespace Flexi.DynamicTables
open Flexi.Library Flexi.Tenancy Relation

/-! ### What the service accepts -/

section Accepted

variable {cfg : Config} {db : TenantSchema} {pending : List DdlJobData} {jobId tableId : Uuid}

theorem sanitizeUserIdentifier_ok {name out : String} (h : sanitizeUserIdentifier name = .ok out) :
    out = name := by
  unfold sanitizeUserIdentifier at h
  split at h
  · rename_i hs
    cases h
    exact (sanitizeIdentifier_ok hs).1
  · cases h

theorem sanitizeUserTableName_ok {name out : String} (h : sanitizeUserTableName name = .ok out) :
    out = name ∧ name ∉ [META_TABLES, META_FIELDS, META_MIGRATIONS] := by
  unfold sanitizeUserTableName at h
  split at h
  · cases h
  · rename_i hp
    refine ⟨sanitizeUserIdentifier_ok h, fun hm => hp ?_⟩
    simp only [List.mem_cons, List.not_mem_nil, or_false] at hm
    rcases hm with rfl | rfl | rfl <;> decide

/-- The payload of an accepted create-table request. -/
structure AcceptedCreate (jobId tableId : Uuid) (dto : CreateTableDto) (d : CreateTableJobData) :
    Prop where
  jobId : d.jobId = jobId
  tableId : d.tableId = tableId
  tableName : d.tableName = dto.name
  unreserved : d.tableName ∉ [META_TABLES, META_FIELDS, META_MIGRATIONS]
  fields : List.Forall₂ (fun (f : CreateTableFieldDto) (j : CreateTableJobField) =>
    j.name = f.name ∧ j.dataType = f.dataType ∧ j.required = f.required.getD false)
    dto.fields d.fields

theorem enqueueCreateTable_ok {dto : CreateTableDto} {d : CreateTableJobData}
    (h : enqueueCreateTable cfg db pending jobId tableId dto = .ok d) :
    AcceptedCreate jobId tableId dto d := by
  unfold enqueueCreateTable at h
  obtain ⟨-, -, h⟩ := except_bind_ok.mp h
  obtain ⟨-, -, h⟩ := except_bind_ok.mp h
  obtain ⟨tableName, hname, h⟩ := except_bind_ok.mp h
  obtain ⟨fields, hfields, h⟩ := except_bind_ok.mp h
  obtain ⟨-, -, h⟩ := except_bind_ok.mp h
  cases h
  obtain ⟨rfl, hres⟩ := sanitizeUserTableName_ok hname
  refine ⟨rfl, rfl, rfl, hres, (except_mapM_ok hfields).imp fun f j hj => ?_⟩
  obtain ⟨name, hn, hj⟩ := except_bind_ok.mp hj
  cases hj
  exact ⟨sanitizeUserIdentifier_ok hn, rfl, rfl⟩

/-- The payload of an accepted field edit: one group of steps and one effect for
each requested edit. -/
structure AcceptedEdit (db : TenantSchema) (jobId tableId : Uuid) (dto : UpdateFieldDto)
    (d : FieldEditJobData) : Prop where
  jobId : d.jobId = jobId
  tableId : d.tableId = tableId
  registered : ∃ m ∈ db.metaTables, m.id = d.tableId ∧ m.name = d.tableName
  built : ∃ built : List (List FieldEditStep × FieldMetadataEffect),
    List.Forall₂ (fun edit b => buildFieldEditSteps db d.tableId edit = .ok b) dto.edits built ∧
      d.steps = (built.map Prod.fst).flatten ∧ d.metadataEffects = built.map Prod.snd

theorem enqueueFieldEdit_ok {dto : UpdateFieldDto} {d : FieldEditJobData}
    (h : enqueueFieldEdit cfg db pending jobId tableId dto = .ok d) :
    AcceptedEdit db jobId tableId dto d := by
  unfold enqueueFieldEdit at h
  obtain ⟨-, -, h⟩ := except_bind_ok.mp h
  obtain ⟨m, hm, h⟩ := except_bind_ok.mp h
  obtain ⟨built, hbuilt, h⟩ := except_bind_ok.mp h
  obtain ⟨-, -, h⟩ := except_bind_ok.mp h
  cases h
  obtain ⟨hmem, hid⟩ := findMetaTableOrThrow_ok hm
  exact ⟨rfl, hid, ⟨m, hmem, rfl, rfl⟩, built, except_mapM_ok hbuilt, rfl, rfl⟩

end Accepted

/-! ### The catalog invariant -/

/-- The metadata rows and the physical tables, for the payloads `accepted` so
far. -/
structure Catalog (accepted : DdlJobData → Prop) (db : TenantSchema) : Prop where
  meta_job : ∀ m ∈ db.metaTables, m.slug = m.name ∧
    ∃ d, accepted (.createTable d) ∧ m.id = d.tableId ∧ m.name = d.tableName
  meta_table : ∀ m ∈ db.metaTables, ∃ t, db.tables.lookup m.name = some t
  name_inj : ∀ m ∈ db.metaTables, ∀ m' ∈ db.metaTables, m.name = m'.name → m.id = m'.id
  created : ∀ n t j, db.tables.lookup n = some t → t.createdBy = some j →
    ∃ d, accepted (.createTable d) ∧ d.jobId = j ∧ d.tableName = n ∧
      ∃ m ∈ db.metaTables, m.id = d.tableId ∧ m.name = n
  field_table : ∀ f ∈ db.metaFields, ∃ m ∈ db.metaTables, m.id = f.tableId
  edit_table : ∀ d, accepted (.fieldEdit d) →
    ∃ m ∈ db.metaTables, m.id = d.tableId ∧ m.name = d.tableName

/-- No two accepted jobs share their id, no two create-table jobs their table
id, and none has a reserved name. -/
structure Distinct (accepted : DdlJobData → Prop) : Prop where
  job_inj : ∀ data data', accepted data → accepted data' → data.jobId = data'.jobId →
    data = data'
  create_inj : ∀ d d', accepted (.createTable d) → accepted (.createTable d') →
    d.tableId = d'.tableId → d = d'
  unreserved : ∀ d, accepted (.createTable d) →
    d.tableName ∉ [META_TABLES, META_FIELDS, META_MIGRATIONS]

section Metadata

variable {db db' : TenantSchema}

/-- The row `upsertMetaTable` leaves for a table id. -/
def metaTableRow (tableId : Uuid) (name : String) (description : Option String) : MetaTable :=
  { id := tableId, name := name, slug := name, description := description,
    ownerColumn := some OWNER_COLUMN }

theorem upsertMetaTable_ok {tableId : Uuid} {name : String} {description : Option String}
    (h : upsertMetaTable tableId name description db = .ok db') :
    db'.tables = db.tables ∧ db'.metaFields = db.metaFields ∧ db'.schema = db.schema ∧
      (∀ m ∈ db.metaTables, m.slug = name → m.id = tableId) ∧
      ∀ m, m ∈ db'.metaTables ↔
        m = metaTableRow tableId name description ∨ m ∈ db.metaTables ∧ m.id ≠ tableId := by
  unfold upsertMetaTable at h
  split at h
  · cases h
  · rename_i hslug
    have hslug : ∀ m ∈ db.metaTables, m.slug = name → m.id = tableId := by
      simpa using hslug
    dsimp only at h
    split at h
    · rename_i hany
      cases h
      refine ⟨rfl, rfl, rfl, hslug, fun m => ?_⟩
      obtain ⟨m₀, hm₀, hid₀⟩ := List.any_eq_true.mp hany
      simp only [beq_iff_eq] at hid₀
      rw [List.mem_map]
      constructor
      · rintro ⟨k, hk, rfl⟩
        by_cases hkid : k.id = tableId
        · left
          simp [hkid, metaTableRow]
        · right
          simp [hkid, hk]
      · rintro (rfl | ⟨hm, hid⟩)
        · exact ⟨m₀, hm₀, by simp [hid₀, metaTableRow]⟩
        · exact ⟨m, hm, by simp [hid]⟩
    · rename_i hany
      cases h
      refine ⟨rfl, rfl, rfl, hslug, fun m => ?_⟩
      have hne : ∀ m ∈ db.metaTables, m.id ≠ tableId := by simpa using hany
      rw [List.mem_append, List.mem_singleton]
      constructor
      · rintro (hm | rfl)
        · exact .inr ⟨hm, hne m hm⟩
        · exact .inl rfl
      · rintro (rfl | ⟨hm, -⟩)
        · exact .inr rfl
        · exact .inl hm

theorem upsertMetaField_ok {row : MetaField} (h : upsertMetaField row db = .ok db') :
    db'.tables = db.tables ∧ db'.metaTables = db.metaTables ∧ db'.schema = db.schema ∧
      (∃ m ∈ db.metaTables, m.id = row.tableId) ∧
      ∀ f, f ∈ db'.metaFields ↔
        f = row ∨ f ∈ db.metaFields ∧ ¬(f.tableId = row.tableId ∧ f.slug = row.slug) := by
  unfold upsertMetaField at h
  dsimp only at h
  split at h
  · cases h
  · rename_i hfk
    have hknown : ∃ m ∈ db.metaTables, m.id = row.tableId := by
      simp only [Bool.or_eq_true, not_or, Bool.not_eq_true', Bool.not_eq_false] at hfk
      simpa using hfk.1
    split at h
    · rename_i hany
      cases h
      refine ⟨rfl, rfl, rfl, hknown, fun f => ?_⟩
      obtain ⟨f₀, hf₀, hkey⟩ := List.any_eq_true.mp hany
      simp only [Bool.and_eq_true, beq_iff_eq] at hkey
      rw [List.mem_map]
      constructor
      · rintro ⟨k, hk, rfl⟩
        by_cases hkk : k.tableId = row.tableId ∧ k.slug = row.slug
        · left
          simp [hkk]
        · right
          simp [hkk, hk]
      · rintro (rfl | ⟨hf, hne⟩)
        · exact ⟨f₀, hf₀, by simp [hkey]⟩
        · exact ⟨f, hf, by simp [hne]⟩
    · rename_i hany
      cases h
      refine ⟨rfl, rfl, rfl, hknown, fun f => ?_⟩
      have hne : ∀ f ∈ db.metaFields, ¬(f.tableId = row.tableId ∧ f.slug = row.slug) := by
        simpa using hany
      rw [List.mem_append, List.mem_singleton]
      constructor
      · rintro (hf | rfl)
        · exact .inr ⟨hf, hne f hf⟩
        · exact .inl rfl
      · rintro (rfl | ⟨hf, -⟩)
        · exact .inr rfl
        · exact .inl hf

/-- The row a create-table job writes for one of its fields. -/
def createdField (tableId : Uuid) (field : CreateTableJobField) : MetaField :=
  { tableId := tableId, name := field.name, slug := field.name, dataType := field.dataType,
    required := field.required, config := field.config, relationTargetTableId := none }

/-- The metadata rows of `fields` have been upserted, the rest kept. -/
structure FieldsWritten (tableId : Uuid) (fields : List CreateTableJobField)
    (db db' : TenantSchema) : Prop where
  tables : db'.tables = db.tables
  metaTables : db'.metaTables = db.metaTables
  schema : db'.schema = db.schema
  mem : ∀ f ∈ db'.metaFields, (∃ field ∈ fields, f = createdField tableId field) ∨
    f ∈ db.metaFields ∧ ¬(f.tableId = tableId ∧ f.slug ∈ fields.map CreateTableJobField.name)
  kept : ∀ f ∈ db.metaFields,
    ¬(f.tableId = tableId ∧ f.slug ∈ fields.map CreateTableJobField.name) → f ∈ db'.metaFields
  written : (fields.map CreateTableJobField.name).Nodup →
    ∀ field ∈ fields, createdField tableId field ∈ db'.metaFields

theorem upsertFields_ok {tableId : Uuid} {fields : List CreateTableJobField}
    (h : fields.foldlM (fun db field => upsertMetaField (createdField tableId field) db) db =
      .ok db') : FieldsWritten tableId fields db db' := by
  induction fields generalizing db with
  | nil =>
    cases h
    exact ⟨rfl, rfl, rfl, fun f hf => .inr ⟨hf, by simp⟩, fun f hf _ => hf, fun _ _ hm => by
      cases hm⟩
  | cons field fields ih =>
    rw [List.foldlM_cons] at h
    obtain ⟨db₁, h₁, h⟩ := except_bind_ok.mp h
    obtain ⟨htab, hmeta, hsch, -, hmem⟩ := upsertMetaField_ok h₁
    have hw := ih h
    refine ⟨hw.tables.trans htab, hw.metaTables.trans hmeta, hw.schema.trans hsch, ?_, ?_, ?_⟩
    · intro f hf
      rcases hw.mem f hf with ⟨x, hx, rfl⟩ | ⟨hf₁, hne⟩
      · exact .inl ⟨x, List.mem_cons_of_mem _ hx, rfl⟩
      · rcases (hmem f).mp hf₁ with rfl | ⟨hf₀, hne₀⟩
        · exact .inl ⟨field, List.mem_cons_self, rfl⟩
        · refine .inr ⟨hf₀, fun hk => ?_⟩
          rcases List.mem_cons.mp hk.2 with hs | hs
          · exact hne₀ ⟨hk.1, hs⟩
          · exact hne ⟨hk.1, hs⟩
    · intro f hf hne
      refine hw.kept f ((hmem f).mpr (.inr ⟨hf, fun hk => hne ⟨hk.1, ?_⟩⟩)) fun hk => hne ⟨hk.1, ?_⟩
      · exact List.mem_cons.mpr (.inl hk.2)
      · exact List.mem_cons_of_mem _ hk.2
    · intro hnd x hx
      rw [List.map_cons, List.nodup_cons] at hnd
      rcases List.mem_cons.mp hx with rfl | hx
      · exact hw.kept _ ((hmem _).mpr (.inl rfl)) fun hk => hnd.1 hk.2
      · exact hw.written hnd.2 x hx

/-- The create-table transaction: the table is found or made, its row and the
rows of its fields are written. -/
structure TableRegistered (d : CreateTableJobData) (db db' : TenantSchema) : Prop where
  physical : (∃ t, db.tables.lookup d.tableName = some t ∧ db'.tables = db.tables) ∨
    ∃ cols, db.tables.lookup d.tableName = none ∧ createTableColumns d.fields = .ok cols ∧
      cols.keys.Nodup ∧ db'.tables = db.tables.insert d.tableName
        { columns := cols.toAList, rows := [], nextId := 1, createdBy := some d.jobId }
  schema : db'.schema = db.schema
  slug : ∀ m ∈ db.metaTables, m.slug = d.tableName → m.id = d.tableId
  metaTables : ∀ m, m ∈ db'.metaTables ↔
    m = metaTableRow d.tableId d.tableName d.description ∨ m ∈ db.metaTables ∧ m.id ≠ d.tableId
  fields : ∃ db₁, db₁.metaFields = db.metaFields ∧ FieldsWritten d.tableId d.fields db₁ db'

theorem createTableBody_ok {d : CreateTableJobData}
    (hres : d.tableName ∉ [META_TABLES, META_FIELDS, META_MIGRATIONS])
    (h : createTableBody d db = .ok db') : TableRegistered d db db' := by
  have hhas : db.hasTable d.tableName = (db.tables.lookup d.tableName).isSome := by
    have hc : [META_TABLES, META_FIELDS, META_MIGRATIONS].contains d.tableName = false := by
      simpa using hres
    rw [TenantSchema.hasTable, hc, Bool.or_false]
  obtain ⟨db₁, hphys, hmeta₁, hfields₁, hsch₁, h⟩ : ∃ db₁,
      ((∃ t, db.tables.lookup d.tableName = some t ∧ db₁.tables = db.tables) ∨
        ∃ cols, db.tables.lookup d.tableName = none ∧ createTableColumns d.fields = .ok cols ∧
          cols.keys.Nodup ∧ db₁.tables = db.tables.insert d.tableName
            { columns := cols.toAList, rows := [], nextId := 1, createdBy := some d.jobId }) ∧
      db₁.metaTables = db.metaTables ∧ db₁.metaFields = db.metaFields ∧
      db₁.schema = db.schema ∧
      (do
        let db ← upsertMetaTable d.tableId d.tableName d.description db₁
        d.fields.foldlM (fun db field => upsertMetaField (createdField d.tableId field) db) db) =
        .ok db' := by
    unfold createTableBody at h
    rw [hhas] at h
    split at h
    · rename_i hsome
      obtain ⟨t, ht⟩ := Option.isSome_iff_exists.mp hsome
      exact ⟨db, .inl ⟨t, ht, rfl⟩, rfl, rfl, rfl, h⟩
    · rename_i hnone
      have hnone' : db.tables.lookup d.tableName = none := by simpa using hnone
      obtain ⟨cols, hcols, h⟩ := except_bind_ok.mp h
      obtain ⟨db₁, hcreate, h⟩ := except_bind_ok.mp h
      unfold TenantSchema.createTable at hcreate
      rw [hhas] at hcreate
      split at hcreate
      · cases hcreate
      split at hcreate
      · rename_i hnd
        cases hcreate
        refine ⟨db.setTable d.tableName
          { columns := cols.toAList, rows := [], nextId := 1, createdBy := some d.jobId },
          .inr ⟨cols, hnone', hcols, hnd, rfl⟩, rfl, rfl, rfl, h⟩
      · cases hcreate
  obtain ⟨db₂, hup, h⟩ := except_bind_ok.mp h
  obtain ⟨htab, hf₂, hsch₂, hslug, hmem⟩ := upsertMetaTable_ok hup
  have hw := upsertFields_ok h
  have htab' : db'.tables = db₁.tables := hw.tables.trans htab
  rw [hmeta₁] at hslug hmem
  refine ⟨by rwa [htab'], hw.schema.trans (hsch₂.trans hsch₁), hslug, ?_, db₂, hf₂.trans hfields₁, hw⟩
  intro m
  rw [hw.metaTables]
  exact hmem m

theorem TableRegistered.lookup {d : CreateTableJobData} (h : TableRegistered d db db') {n : String}
    {t : PhysTable} (ht : db.tables.lookup n = some t) : db'.tables.lookup n = some t := by
  rcases h.physical with ⟨-, -, he⟩ | ⟨cols, hnone, -, -, he⟩
  · rw [he]
    exact ht
  · rw [he]
    have hn : n ≠ d.tableName := by
      rintro rfl
      rw [hnone] at ht
      cases ht
    rw [AList.lookup_insert_ne hn]
    exact ht

end Metadata

/-! ### Nothing registered goes away -/

/-- Tables keep their creator, registered ids their name. -/
structure Extends (db db' : TenantSchema) : Prop where
  tables : ∀ n t, db.tables.lookup n = some t →
    ∃ t', db'.tables.lookup n = some t' ∧ t'.createdBy = t.createdBy
  metaTables : ∀ m ∈ db.metaTables, ∃ m' ∈ db'.metaTables, m'.id = m.id ∧ m'.name = m.name
  schema : db'.schema = db.schema

namespace Extends

variable {db db' db'' : TenantSchema}

theorem of_eq (ht : db'.tables = db.tables) (hm : db'.metaTables = db.metaTables)
    (hs : db'.schema = db.schema) : Extends db db' where
  tables := fun n t h => ⟨t, by rw [ht]; exact h, rfl⟩
  metaTables := fun m h => ⟨m, by rw [hm]; exact h, rfl, rfl⟩
  schema := hs

theorem refl (db : TenantSchema) : Extends db db := .of_eq rfl rfl rfl

theorem trans (h : Extends db db') (h' : Extends db' db'') : Extends db db'' where
  tables := fun n t ht => by
    obtain ⟨t', ht', hby⟩ := h.tables n t ht
    obtain ⟨t'', ht'', hby'⟩ := h'.tables n t' ht'
    exact ⟨t'', ht'', hby'.trans hby⟩
  metaTables := fun m hm => by
    obtain ⟨m', hm', hid, hn⟩ := h.metaTables m hm
    obtain ⟨m'', hm'', hid', hn'⟩ := h'.metaTables m' hm'
    exact ⟨m'', hm'', hid'.trans hid, hn'.trans hn⟩
  schema := h'.schema.trans h.schema

theorem tableChange {name : String} {t t' : PhysTable} (h : TableChange name t t' db db')
    (hby : t'.createdBy = t.createdBy) : Extends db db' where
  tables := fun n u hu => by
    by_cases hn : n = name
    · subst hn
      have hut : u = t := Option.some.inj (hu.symm.trans h.before)
      exact ⟨t', h.after, by rw [hby, hut]⟩
    · exact ⟨u, by rw [h.others n hn]; exact hu, rfl⟩
  metaTables := fun m hm => ⟨m, by rw [h.metaTables]; exact hm, rfl, rfl⟩
  schema := h.schema

end Extends

/-! ### Every write keeps the catalog -/

namespace Catalog

theorem name_of_id {accepted : DdlJobData → Prop} {db : TenantSchema} (hd : Distinct accepted)
    (hc : Catalog accepted db) {m m' : MetaTable} (hm : m ∈ db.metaTables)
    (hm' : m' ∈ db.metaTables) (h : m.id = m'.id) : m.name = m'.name := by
  obtain ⟨-, d, hd₁, hid, hn⟩ := hc.meta_job m hm
  obtain ⟨-, d', hd₂, hid', hn'⟩ := hc.meta_job m' hm'
  have he : d = d' := hd.create_inj d d' hd₁ hd₂ (hid.symm.trans (h.trans hid'))
  rw [hn, hn', he]

variable {pg : Postgres} {accepted accepted' : DdlJobData → Prop} {db db' : TenantSchema}

theorem mono (hc : Catalog accepted db) (hsub : ∀ data, accepted data → accepted' data)
    (hedit : ∀ d, accepted' (.fieldEdit d) → accepted (.fieldEdit d) ∨
      ∃ m ∈ db.metaTables, m.id = d.tableId ∧ m.name = d.tableName) : Catalog accepted' db where
  meta_job := fun m hm => by
    obtain ⟨hs, d, hd, hid, hn⟩ := hc.meta_job m hm
    exact ⟨hs, d, hsub _ hd, hid, hn⟩
  meta_table := hc.meta_table
  name_inj := hc.name_inj
  created := fun n t j ht hj => by
    obtain ⟨d, hd, h⟩ := hc.created n t j ht hj
    exact ⟨d, hsub _ hd, h⟩
  field_table := hc.field_table
  edit_table := fun d hd => (hedit d hd).elim (hc.edit_table d) id

theorem tableChange {name : String} {t t' : PhysTable} (hc : Catalog accepted db)
    (h : TableChange name t t' db db') (hby : t'.createdBy = t.createdBy) :
    Catalog accepted db' where
  meta_job := by
    rw [h.metaTables]
    exact hc.meta_job
  meta_table := by
    rw [h.metaTables]
    intro m hm
    by_cases hn : m.name = name
    · rw [hn]
      exact ⟨t', h.after⟩
    · rw [h.others _ hn]
      exact hc.meta_table m hm
  name_inj := by
    rw [h.metaTables]
    exact hc.name_inj
  created := by
    rw [h.metaTables]
    intro n u j hu hj
    by_cases hn : n = name
    · subst hn
      have hut : u = t' := Option.some.inj (hu.symm.trans h.after)
      rw [hut, hby] at hj
      exact hc.created n t j h.before hj
    · rw [h.others _ hn] at hu
      exact hc.created n u j hu hj
  field_table := by
    rw [h.metaTables, h.metaFields]
    exact hc.field_table
  edit_table := by
    rw [h.metaTables]
    exact hc.edit_table

theorem fields (hc : Catalog accepted db) (ht : db'.tables = db.tables)
    (hm : db'.metaTables = db.metaTables)
    (hf : ∀ f ∈ db'.metaFields, ∃ m ∈ db.metaTables, m.id = f.tableId) : Catalog accepted db' where
  meta_job := by
    rw [hm]
    exact hc.meta_job
  meta_table := by
    rw [hm, ht]
    exact hc.meta_table
  name_inj := by
    rw [hm]
    exact hc.name_inj
  created := by
    rw [hm, ht]
    exact hc.created
  field_table := by
    rw [hm]
    exact hf
  edit_table := by
    rw [hm]
    exact hc.edit_table

theorem tableRegistered_extends {d : CreateTableJobData} (hd : Distinct accepted)
    (hc : Catalog accepted db) (ha : accepted (.createTable d)) (h : TableRegistered d db db') :
    Extends db db' where
  tables := fun n t ht => ⟨t, h.lookup ht, rfl⟩
  metaTables := fun m hm => by
    by_cases hid : m.id = d.tableId
    · -- the row stood for this job before, so it has the id and name it gets again
      obtain ⟨-, d', hd', hid', hn'⟩ := hc.meta_job m hm
      have hdd : d' = d := hd.create_inj d' d hd' ha (hid'.symm.trans hid)
      subst hdd
      exact ⟨_, (h.metaTables _).mpr (.inl rfl), hid.symm, hn'.symm⟩
    · exact ⟨m, (h.metaTables m).mpr (.inr ⟨hm, hid⟩), rfl, rfl⟩
  schema := h.schema

theorem tableRegistered {d : CreateTableJobData} (hd : Distinct accepted) (hc : Catalog accepted db)
    (ha : accepted (.createTable d)) (h : TableRegistered d db db') : Catalog accepted db' := by
  have hrow : metaTableRow d.tableId d.tableName d.description ∈ db'.metaTables :=
    (h.metaTables _).mpr (.inl rfl)
  have hkeep := (hc.tableRegistered_extends hd ha h).metaTables
  obtain ⟨db₁, hf₁, hw⟩ := h.fields
  refine ⟨?_, ?_, ?_, ?_, ?_, ?_⟩
  · intro m hm
    rcases (h.metaTables m).mp hm with rfl | ⟨hm, -⟩
    · exact ⟨rfl, d, ha, rfl, rfl⟩
    · exact hc.meta_job m hm
  · intro m hm
    rcases (h.metaTables m).mp hm with rfl | ⟨hm, -⟩
    · rcases h.physical with ⟨t, ht, he⟩ | ⟨cols, -, -, -, he⟩
      · exact ⟨t, by rw [he]; exact ht⟩
      · exact ⟨_, by rw [he]; exact AList.lookup_insert _⟩
    · obtain ⟨t, ht⟩ := hc.meta_table m hm
      exact ⟨t, h.lookup ht⟩
  · have hslug : ∀ m ∈ db.metaTables, m.name = d.tableName → m.id = d.tableId := fun m hm hn =>
      h.slug m hm ((hc.meta_job m hm).1.trans hn)
    intro m hm m' hm' hn
    rcases (h.metaTables m).mp hm with rfl | ⟨hm, -⟩
    · rcases (h.metaTables m').mp hm' with rfl | ⟨hm', -⟩
      · rfl
      · exact (hslug m' hm' hn.symm).symm
    · rcases (h.metaTables m').mp hm' with rfl | ⟨hm', -⟩
      · exact hslug m hm hn
      · exact hc.name_inj m hm m' hm' hn
  · intro n t j ht hj
    have hold : db.tables.lookup n = some t → ∃ d, accepted (.createTable d) ∧ d.jobId = j ∧
        d.tableName = n ∧ ∃ m ∈ db'.metaTables, m.id = d.tableId ∧ m.name = n := by
      intro ht₀
      obtain ⟨d', hd', hj', hn', m, hm, hid, hmn⟩ := hc.created n t j ht₀ hj
      obtain ⟨m', hm', hid', hn''⟩ := hkeep m hm
      exact ⟨d', hd', hj', hn', m', hm', hid'.trans hid, hn''.trans hmn⟩
    rcases h.physical with ⟨-, -, he⟩ | ⟨cols, -, -, -, he⟩
    · rw [he] at ht
      exact hold ht
    · rw [he] at ht
      by_cases hn : n = d.tableName
      · subst hn
        rw [AList.lookup_insert] at ht
        cases ht
        cases hj
        exact ⟨d, ha, rfl, rfl, _, hrow, rfl, rfl⟩
      · rw [AList.lookup_insert_ne hn] at ht
        exact hold ht
  · intro f hf
    rcases hw.mem f hf with ⟨x, -, rfl⟩ | ⟨hf, -⟩
    · exact ⟨_, hrow, rfl⟩
    · rw [hf₁] at hf
      obtain ⟨m, hm, hid⟩ := hc.field_table f hf
      obtain ⟨m', hm', hid', -⟩ := hkeep m hm
      exact ⟨m', hm', hid'.trans hid⟩
  · intro d' hd'
    obtain ⟨m, hm, hid, hn⟩ := hc.edit_table d' hd'
    obtain ⟨m', hm', hid', hn'⟩ := hkeep m hm
    exact ⟨m', hm', hid'.trans hid, hn'.trans hn⟩

theorem applyEffect_frame {tableId : Uuid} {effect : FieldMetadataEffect}
    (h : applyEffect tableId db effect = .ok db') :
    db'.tables = db.tables ∧ db'.metaTables = db.metaTables ∧ db'.schema = db.schema ∧
      ∀ f, f.tableId ≠ tableId → (f ∈ db'.metaFields ↔ f ∈ db.metaFields) := by
  cases effect with
  | upsertField name slug dataType required config target =>
    obtain ⟨htab, hmeta, hsch, -, hmem⟩ := upsertMetaField_ok h
    refine ⟨htab, hmeta, hsch, fun f hid => ?_⟩
    rw [hmem]
    constructor
    · rintro (rfl | ⟨hf, -⟩)
      · exact absurd rfl hid
      · exact hf
    · exact fun hf => .inr ⟨hf, fun hk => hid hk.1⟩
  | removeField slug =>
    cases h
    refine ⟨rfl, rfl, rfl, fun f hid => ?_⟩
    simp [removeMetaField, hid]

theorem applyEffects_frame {tableId : Uuid} {effects : List FieldMetadataEffect}
    (h : effects.foldlM (applyEffect tableId) db = .ok db') :
    db'.tables = db.tables ∧ db'.metaTables = db.metaTables ∧ db'.schema = db.schema ∧
      ∀ f, f.tableId ≠ tableId → (f ∈ db'.metaFields ↔ f ∈ db.metaFields) := by
  refine except_foldlM_invariant
    (I := fun s => s.tables = db.tables ∧ s.metaTables = db.metaTables ∧ s.schema = db.schema ∧
      ∀ f, f.tableId ≠ tableId → (f ∈ s.metaFields ↔ f ∈ db.metaFields))
    ?_ ⟨rfl, rfl, rfl, fun _ _ => Iff.rfl⟩ h
  rintro e - s s' ⟨htab, hmeta, hsch, hf⟩ hstep
  obtain ⟨htab', hmeta', hsch', hf'⟩ := applyEffect_frame hstep
  exact ⟨htab'.trans htab, hmeta'.trans hmeta, hsch'.trans hsch,
    fun f hid => (hf' f hid).trans (hf f hid)⟩

theorem applyEffect_keeps {tableId : Uuid} {effect : FieldMetadataEffect}
    (hc : Catalog accepted db) (h : applyEffect tableId db effect = .ok db') :
    Catalog accepted db' := by
  cases effect with
  | upsertField name slug dataType required config target =>
    obtain ⟨htab, hmeta, -, hknown, hmem⟩ := upsertMetaField_ok h
    refine hc.fields htab hmeta fun f hf => ?_
    rcases (hmem f).mp hf with rfl | ⟨hf, -⟩
    · exact hknown
    · exact hc.field_table f hf
  | removeField slug =>
    cases h
    exact hc.fields rfl rfl fun f hf => hc.field_table f (List.mem_of_mem_filter hf)

theorem write {data : DdlJobData} (hd : Distinct accepted) (ha : accepted data)
    (hc : Catalog accepted db) (h : JobWrite pg data db db') : Catalog accepted db' := by
  cases h with
  | migration => exact hc.fields rfl rfl hc.field_table
  | create h => exact hc.tableRegistered hd ha (createTableBody_ok (hd.unreserved _ ha) h)
  | step _ h =>
    obtain ⟨m, hm, -, hn⟩ := hc.edit_table _ ha
    obtain ⟨t, ht⟩ := hc.meta_table m hm
    obtain ⟨t', hch, hk⟩ := executeStep_frame (hn ▸ ht) h
    exact hc.tableChange hch hk.createdBy
  | effects h =>
    exact except_foldlM_invariant (I := Catalog accepted)
      (fun e _ s s' hs h' => hs.applyEffect_keeps h') hc h

theorem written {data : DdlJobData} (hd : Distinct accepted) (ha : accepted data)
    (hc : Catalog accepted db) (h : ReflTransGen (JobWrite pg data) db db') :
    Catalog accepted db' := by
  induction h with
  | refl => exact hc
  | tail _ hw ih => exact ih.write hd ha hw

theorem write_extends {data : DdlJobData} (hd : Distinct accepted) (ha : accepted data)
    (hc : Catalog accepted db) (h : JobWrite pg data db db') : Extends db db' := by
  cases h with
  | migration => exact .of_eq rfl rfl rfl
  | create h =>
    exact hc.tableRegistered_extends hd ha (createTableBody_ok (hd.unreserved _ ha) h)
  | step _ h =>
    obtain ⟨m, hm, -, hn⟩ := hc.edit_table _ ha
    obtain ⟨t, ht⟩ := hc.meta_table m hm
    obtain ⟨t', hch, hk⟩ := executeStep_frame (hn ▸ ht) h
    exact .tableChange hch hk.createdBy
  | effects h =>
    obtain ⟨htab, hmeta, hsch, -⟩ := applyEffects_frame h
    exact .of_eq htab hmeta hsch

theorem written_extends {data : DdlJobData} (hd : Distinct accepted) (ha : accepted data)
    (hc : Catalog accepted db) (h : ReflTransGen (JobWrite pg data) db db') : Extends db db' := by
  induction h with
  | refl => exact .refl db
  | tail hr hw ih => exact ih.trans ((hc.written hd ha hr).write_extends hd ha hw)

end Catalog

/-! ### The registry of a run -/

/-- Payloads of the jobs on the queue, finished ones included. -/
def World.accepted (w : World) (data : DdlJobData) : Prop := ∃ job ∈ w.jobs, job.data = data

structure Registered (w : World) : Prop where
  id_lt : ∀ job ∈ w.jobs, job.id < w.nextUuid
  id_data : ∀ job ∈ w.jobs, job.data.jobId = job.id
  id_nodup : (w.jobs.map Job.id).Nodup
  tableId_lt : ∀ job ∈ w.jobs, job.data.tableId < w.nextUuid
  distinct : Distinct w.accepted
  catalog : Catalog w.accepted w.db

section SetJob

variable {env : Env} {w : World} {job job' : Job} {db' : TenantSchema}

theorem setJob_ids :
    (w.setJob job' db').jobs.map Job.id = w.jobs.map Job.id := by
  simp only [World.setJob, List.map_map]
  refine List.map_congr_left fun k _ => ?_
  dsimp only [Function.comp]
  split
  · rename_i hk
    exact (by simpa using hk : k.id = job'.id).symm
  · rfl

theorem mem_setJob (h : Attempted env job w.db job' db') (mem : job ∈ w.jobs) (k : Job) :
    k ∈ (w.setJob job' db').jobs ↔ k = job' ∨ k ∈ w.jobs ∧ k.id ≠ job.id := by
  simp only [World.setJob, List.mem_map]
  constructor
  · rintro ⟨k₀, hk₀, rfl⟩
    by_cases hk : k₀.id = job'.id
    · exact .inl (by simp [hk])
    · exact .inr (by simp [hk, hk₀, ← h.id])
  · rintro (rfl | ⟨hk, hne⟩)
    · exact ⟨job, mem, by simp [h.id]⟩
    · exact ⟨k, hk, by simp [h.id, hne]⟩

theorem Registered.job_eq (hr : Registered w) {k : Job} (hjob : job ∈ w.jobs) (hk : k ∈ w.jobs)
    (he : k.id = job.id) : k = job :=
  List.inj_on_of_nodup_map hr.id_nodup hk hjob he

theorem accepted_setJob (hr : Registered w) (h : Attempted env job w.db job' db')
    (mem : job ∈ w.jobs) (data : DdlJobData) :
    (w.setJob job' db').accepted data ↔ w.accepted data := by
  constructor
  · rintro ⟨k, hk, rfl⟩
    rcases (mem_setJob h mem k).mp hk with rfl | ⟨hk, -⟩
    · exact ⟨job, mem, h.data.symm⟩
    · exact ⟨k, hk, rfl⟩
  · rintro ⟨k, hk, rfl⟩
    by_cases he : k.id = job.id
    · rw [hr.job_eq mem hk he]
      exact ⟨job', (mem_setJob h mem job').mpr (.inl rfl), h.data⟩
    · exact ⟨k, (mem_setJob h mem k).mpr (.inr ⟨hk, he⟩), rfl⟩

end SetJob

section Enqueue

variable {w : World} {data : DdlJobData} {n : ℕ}

theorem mem_enqueue (job : Job) : job ∈ (w.enqueue data n).jobs ↔ job ∈ w.jobs ∨
    job = { id := data.jobId, data := data, attemptsMade := 0, state := .waiting,
            failedReason := none, committed := 0, tablesAtAcceptance := w.db.tables.keys } := by
  simp [World.enqueue]

theorem accepted_enqueue (other : DdlJobData) :
    (w.enqueue data n).accepted other ↔ w.accepted other ∨ other = data := by
  constructor
  · rintro ⟨job, hjob, rfl⟩
    rcases (mem_enqueue job).mp hjob with hjob | rfl
    · exact .inl ⟨job, hjob, rfl⟩
    · exact .inr rfl
  · rintro (⟨job, hjob, rfl⟩ | rfl)
    · exact ⟨job, (mem_enqueue job).mpr (.inl hjob), rfl⟩
    · exact ⟨_, (mem_enqueue _).mpr (.inr rfl), rfl⟩

theorem Registered.jobId_lt (hr : Registered w) {other : DdlJobData} (h : w.accepted other) :
    other.jobId < w.nextUuid := by
  obtain ⟨job, hjob, rfl⟩ := h
  rw [hr.id_data job hjob]
  exact hr.id_lt job hjob

theorem Registered.job_inj_enqueue (hr : Registered w) (hid : data.jobId = w.nextUuid) :
    ∀ data₁ data₂, (w.enqueue data n).accepted data₁ → (w.enqueue data n).accepted data₂ →
      data₁.jobId = data₂.jobId → data₁ = data₂ := by
  intro data₁ data₂ h₁ h₂ he
  rcases (accepted_enqueue _).mp h₁ with k₁ | k₁
  · rcases (accepted_enqueue _).mp h₂ with k₂ | k₂
    · exact hr.distinct.job_inj data₁ data₂ k₁ k₂ he
    · have hlt := hr.jobId_lt k₁
      rw [he, k₂, hid] at hlt
      exact absurd hlt (Nat.lt_irrefl _)
  · rcases (accepted_enqueue _).mp h₂ with k₂ | k₂
    · have hlt := hr.jobId_lt k₂
      rw [← he, k₁, hid] at hlt
      exact absurd hlt (Nat.lt_irrefl _)
    · exact k₁.trans k₂.symm

theorem Registered.enqueue (hr : Registered w) (hid : data.jobId = w.nextUuid) (hn : 0 < n)
    (htable : data.tableId < w.nextUuid + n)
    (hd : Distinct (w.enqueue data n).accepted)
    (hc : Catalog (w.enqueue data n).accepted w.db) : Registered (w.enqueue data n) where
  id_lt := by
    intro job hjob
    show job.id < w.nextUuid + n
    rcases (mem_enqueue job).mp hjob with hjob | rfl
    · exact Nat.lt_add_right n (hr.id_lt job hjob)
    · show data.jobId < w.nextUuid + n
      rw [hid]
      exact Nat.lt_add_of_pos_right hn
  id_data := by
    intro job hjob
    rcases (mem_enqueue job).mp hjob with hjob | rfl
    · exact hr.id_data job hjob
    · rfl
  id_nodup := by
    show ((w.jobs ++ [_]).map Job.id).Nodup
    rw [List.map_append, List.nodup_append]
    refine ⟨hr.id_nodup, List.nodup_singleton _, ?_⟩
    intro a ha b hb
    obtain ⟨job, hjob, rfl⟩ := List.mem_map.mp ha
    have hb : b = data.jobId := by simpa using hb
    rw [hb, hid]
    exact Nat.ne_of_lt (hr.id_lt job hjob)
  tableId_lt := by
    intro job hjob
    show job.data.tableId < w.nextUuid + n
    rcases (mem_enqueue job).mp hjob with hjob | rfl
    · exact Nat.lt_add_right n (hr.tableId_lt job hjob)
    · exact htable
  distinct := hd
  catalog := hc

end Enqueue

theorem Registered.metaTable_id_lt {w : World} (hr : Registered w) {m : MetaTable}
    (hm : m ∈ w.db.metaTables) : m.id < w.nextUuid := by
  obtain ⟨-, d, ⟨job, hjob, hdata⟩, hid, -⟩ := hr.catalog.meta_job m hm
  have hlt := hr.tableId_lt job hjob
  rw [hdata] at hlt
  rw [hid]
  exact hlt

theorem Registered.field_tableId_lt {w : World} (hr : Registered w) {f : MetaField}
    (hf : f ∈ w.db.metaFields) : f.tableId < w.nextUuid := by
  obtain ⟨m, hm, hid⟩ := hr.catalog.field_table f hf
  rw [← hid]
  exact hr.metaTable_id_lt hm

theorem Registered.of_db {w : World} {db' : TenantSchema} {cache : ValidationSchemaCache}
    (hr : Registered w) (hc : Catalog w.accepted db') :
    Registered { w with db := db', cache := cache } where
  id_lt := hr.id_lt
  id_data := hr.id_data
  id_nodup := hr.id_nodup
  tableId_lt := hr.tableId_lt
  distinct := hr.distinct
  catalog := hc

theorem Registered.transition {env : Env} {w w' : World} {e : Event} (hr : Registered w)
    (h : Transition env w e w') : Registered w' := by
  cases h with
  | refused _ => exact hr.of_db hr.catalog
  | @createTable dto d accepted =>
    have ha := enqueueCreateTable_ok accepted
    have hnew : ∀ d', w.accepted (.createTable d') → d'.tableId ≠ d.tableId := by
      rintro d' ⟨job, hjob, hdata⟩ he
      have hlt := hr.tableId_lt job hjob
      rw [hdata] at hlt
      have hlt : d'.tableId < w.nextUuid := hlt
      rw [he, ha.tableId] at hlt
      exact Nat.not_succ_lt_self hlt
    have htable : d.tableId < w.nextUuid + 2 := by
      rw [ha.tableId]
      exact Nat.lt_succ_self _
    refine hr.enqueue ha.jobId (by omega) htable ?_ ?_
    · refine ⟨hr.job_inj_enqueue ha.jobId, fun d₁ d₂ h₁ h₂ he => ?_, fun d₁ h₁ => ?_⟩
      · rcases (accepted_enqueue _).mp h₁ with h₁ | h₁
        · rcases (accepted_enqueue _).mp h₂ with h₂ | h₂
          · exact hr.distinct.create_inj d₁ d₂ h₁ h₂ he
          · cases h₂
            exact absurd he (hnew d₁ h₁)
        · cases h₁
          rcases (accepted_enqueue _).mp h₂ with h₂ | h₂
          · exact absurd he.symm (hnew d₂ h₂)
          · cases h₂
            rfl
      · rcases (accepted_enqueue _).mp h₁ with h₁ | h₁
        · exact hr.distinct.unreserved d₁ h₁
        · cases h₁
          exact ha.unreserved
    · refine hr.catalog.mono (fun data hd => (accepted_enqueue _).mpr (.inl hd)) fun d' hd' => ?_
      rcases (accepted_enqueue _).mp hd' with hd' | hd'
      · exact .inl hd'
      · cases hd'
  | @fieldEdit tableId dto d accepted =>
    have ha := enqueueFieldEdit_ok accepted
    have htable : d.tableId < w.nextUuid := by
      obtain ⟨m, hm, hid, -⟩ := ha.registered
      rw [← hid]
      exact hr.metaTable_id_lt hm
    have hcreates : ∀ d', (w.enqueue (.fieldEdit d) 1).accepted (.createTable d') →
        w.accepted (.createTable d') := by
      intro d' hd'
      rcases (accepted_enqueue _).mp hd' with hd' | hd'
      · exact hd'
      · cases hd'
    have hreg : Registered (w.enqueue (.fieldEdit d) 1) := by
      refine hr.enqueue ha.jobId (by omega) (Nat.lt_succ_of_lt htable) ?_ ?_
      · refine ⟨hr.job_inj_enqueue ha.jobId, fun d₁ d₂ h₁ h₂ => ?_,
          fun d₁ h₁ => hr.distinct.unreserved d₁ (hcreates d₁ h₁)⟩
        exact hr.distinct.create_inj d₁ d₂ (hcreates d₁ h₁) (hcreates d₂ h₂)
      · refine hr.catalog.mono (fun data hd => (accepted_enqueue _).mpr (.inl hd)) fun d' hd' => ?_
        rcases (accepted_enqueue _).mp hd' with hd' | hd'
        · exact .inl hd'
        · cases hd'
          exact .inr ha.registered
    exact hreg.of_db hreg.catalog
  | @attempt job faults mem unfinished =>
    have ha := Job.run_attempted env job faults w.db
    have hacc := funext fun data => propext (accepted_setJob hr ha mem data)
    refine ⟨?_, ?_, ?_, ?_, ?_, ?_⟩
    · intro k hk
      rcases (mem_setJob ha mem k).mp hk with rfl | ⟨hk, -⟩
      · rw [ha.id]
        exact hr.id_lt job mem
      · exact hr.id_lt k hk
    · intro k hk
      rcases (mem_setJob ha mem k).mp hk with rfl | ⟨hk, -⟩
      · rw [ha.data, ha.id]
        exact hr.id_data job mem
      · exact hr.id_data k hk
    · rw [setJob_ids]
      exact hr.id_nodup
    · intro k hk
      rcases (mem_setJob ha mem k).mp hk with rfl | ⟨hk, -⟩
      · rw [ha.data]
        exact hr.tableId_lt job mem
      · exact hr.tableId_lt k hk
    · rw [hacc]
      exact hr.distinct
    · rw [hacc]
      exact hr.catalog.written hr.distinct ⟨job, mem, rfl⟩ ha.written
  | createRow hm ht _ => exact hr.of_db (hr.catalog.tableChange (.setTable ht) rfl)
  | updateRow hm ht _ => exact hr.of_db (hr.catalog.tableChange (.setTable ht) rfl)

theorem Registered.transition_extends {env : Env} {w w' : World} {e : Event} (hr : Registered w)
    (h : Transition env w e w') : Extends w.db w'.db := by
  cases h with
  | refused _ => exact .refl w.db
  | createTable _ => exact .refl w.db
  | fieldEdit _ => exact .refl w.db
  | @attempt job faults mem unfinished =>
    exact hr.catalog.written_extends hr.distinct ⟨job, mem, rfl⟩
      (Job.run_attempted env job faults w.db).written
  | createRow hm ht _ => exact .tableChange (.setTable ht) rfl
  | updateRow hm ht _ => exact .tableChange (.setTable ht) rfl

/-- A bootstrapped schema beside tables that no job made. -/
theorem registered_bootstrapped {schema : String} {tables : Tables}
    (h : ∀ n t, tables.lookup n = some t → t.createdBy = none) :
    Registered (bootstrapped schema tables) := by
  have hno : ∀ data, ¬(bootstrapped schema tables).accepted data := by
    rintro data ⟨job, hjob, -⟩
    cases hjob
  refine ⟨?_, ?_, List.nodup_nil, ?_, ⟨?_, ?_, ?_⟩, ⟨?_, ?_, ?_, ?_, ?_, ?_⟩⟩
  · exact fun job hjob => by cases hjob
  · exact fun job hjob => by cases hjob
  · exact fun job hjob => by cases hjob
  · exact fun data _ hd => absurd hd (hno _)
  · exact fun d _ hd => absurd hd (hno _)
  · exact fun d hd => absurd hd (hno _)
  · exact fun m hm => by cases hm
  · exact fun m hm => by cases hm
  · exact fun m hm => by cases hm
  · intro n t j ht hj
    rw [h n t ht] at hj
    cases hj
  · exact fun f hf => by cases hf
  · exact fun d hd => absurd hd (hno _)

theorem registered_reach {env : Env} {Ok : World → Event → Prop} {schema : String}
    {tables : Tables} {w : World} (hby : ∀ n t, tables.lookup n = some t → t.createdBy = none)
    (h : Reach (step env) Ok (bootstrapped schema tables) w) : Registered w :=
  h.invariant (registered_bootstrapped hby) fun _ _ _ _ hi _ hs =>
    hi.transition (transition_of_step hs)

end Flexi.DynamicTables
