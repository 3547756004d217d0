import Flexi.DynamicTables.TableOwnership

/-!
# The rows of `_meta_fields`

What the upserts and removals of a job do to the slugs of a table. No two rows of a table
have one slug, in any run.
-/

namespace Flexi.DynamicTables
open Flexi.Library Flexi.Tenants Relation

/-- The slugs of a table's rows in `_meta_fields`. -/
def TenantSchema.fieldSlugs (db : TenantSchema) (tableId : Uuid) : List String :=
  (db.metaFields.filter fun f => f.tableId == tableId).map MetaField.slug

/-- `_meta_fields` is unique on table and slug. -/
def TenantSchema.Keyed (db : TenantSchema) : Prop := ∀ tableId, (db.fieldSlugs tableId).Nodup

/-! ### Rows written by an upsert -/

section Slugs

variable {db db' : TenantSchema} {tableId : Uuid}

theorem mem_fieldSlugs {slug : String} :
    slug ∈ db.fieldSlugs tableId ↔ ∃ f ∈ db.metaFields, f.tableId = tableId ∧ f.slug = slug := by
  simp [TenantSchema.fieldSlugs, and_assoc]

theorem fieldSlugs_of_eq (h : db'.metaFields = db.metaFields) (tableId : Uuid) :
    db'.fieldSlugs tableId = db.fieldSlugs tableId := by
  rw [TenantSchema.fieldSlugs, h, TenantSchema.fieldSlugs]

theorem fieldSlugs_replace (row : MetaField) (rows : List MetaField) :
    ((rows.map fun f => if f.tableId == row.tableId && f.slug == row.slug then row else f).filter
      fun f => f.tableId == tableId).map MetaField.slug =
      (rows.filter fun f => f.tableId == tableId).map MetaField.slug := by
  induction rows with
  | nil => rfl
  | cons f rows ih =>
    have hhead : (if f.tableId == row.tableId && f.slug == row.slug then row else f).tableId = f.tableId ∧
        (if f.tableId == row.tableId && f.slug == row.slug then row else f).slug = f.slug := by
      split
      · rename_i h
        simp only [Bool.and_eq_true, beq_iff_eq] at h
        exact ⟨h.1.symm, h.2.symm⟩
      · exact ⟨rfl, rfl⟩
    rw [List.map_cons, List.filter_cons, List.filter_cons, hhead.1]
    split
    · rw [List.map_cons, List.map_cons, ih, hhead.2]
    · exact ih

theorem upsertMetaField_slugs {row : MetaField} (h : upsertMetaField row db = .ok db') (tableId : Uuid) :
    db'.fieldSlugs tableId = if tableId = row.tableId ∧ row.slug ∉ db.fieldSlugs tableId
      then db.fieldSlugs tableId ++ [row.slug] else db.fieldSlugs tableId := by
  have hany : (db.metaFields.any fun f => f.tableId == row.tableId && f.slug == row.slug) = true ↔
      row.slug ∈ db.fieldSlugs row.tableId := by
    simp [mem_fieldSlugs]
  unfold upsertMetaField at h
  dsimp only at h
  split at h
  · cases h
  split at h
  · rename_i hold
    cases h
    rw [if_neg fun hk => hk.2 (hk.1 ▸ hany.mp hold)]
    exact fieldSlugs_replace row db.metaFields
  · rename_i hnew
    cases h
    have hslugs : (db.metaFields ++ [row]).filter (fun f => f.tableId == tableId) =
        (db.metaFields.filter fun f => f.tableId == tableId) ++
          if tableId = row.tableId then [row] else [] := by
      rw [List.filter_append]
      by_cases ht : tableId = row.tableId
      · simp [ht]
      · simp [ht, Ne.symm ht]
    rw [TenantSchema.fieldSlugs, hslugs, List.map_append]
    by_cases ht : tableId = row.tableId
    · subst ht
      rw [if_pos rfl, if_pos ⟨rfl, fun hk => hnew (hany.mpr hk)⟩]
      rfl
    · rw [if_neg ht, if_neg fun hk => ht hk.1]
      simp [TenantSchema.fieldSlugs]

theorem removeMetaField_slugs (slug : String) (removedFrom : Uuid) :
    (removeMetaField removedFrom slug db).fieldSlugs tableId =
      (db.fieldSlugs tableId).filter fun s => !(tableId == removedFrom && s == slug) := by
  simp only [TenantSchema.fieldSlugs, removeMetaField, List.filter_map, List.filter_filter]
  congr 1
  refine List.filter_congr fun f _ => ?_
  by_cases hf : f.tableId = tableId
  · simp [hf]
  · have hne : (f.tableId == tableId) = false := beq_eq_false_iff_ne.mpr hf
    rw [hne, Bool.false_and, Bool.and_false]

/-- The rows of `tableId` may have grown by `new`, the other tables are as they were. -/
structure SlugsAdded (tableId : Uuid) (new : List String) (db db' : TenantSchema) : Prop where
  keyed : db.Keyed → db'.Keyed
  mem : ∀ slug ∈ db'.fieldSlugs tableId, slug ∈ db.fieldSlugs tableId ∨ slug ∈ new
  others : ∀ other, other ≠ tableId → db'.fieldSlugs other = db.fieldSlugs other

namespace SlugsAdded

variable {new new' : List String} {db'' : TenantSchema}

theorem of_eq (h : db'.metaFields = db.metaFields) : SlugsAdded tableId new db db' where
  keyed hk other := by
    rw [fieldSlugs_of_eq h]
    exact hk other
  mem slug hs := by
    rw [fieldSlugs_of_eq h] at hs
    exact .inl hs
  others other _ := fieldSlugs_of_eq h other

theorem trans (h : SlugsAdded tableId new db db') (h' : SlugsAdded tableId new' db' db'') :
    SlugsAdded tableId (new ++ new') db db'' where
  keyed hk := h'.keyed (h.keyed hk)
  mem slug hs := by
    rw [List.mem_append]
    rcases h'.mem slug hs with hs | hs
    · rcases h.mem slug hs with hs | hs
      · exact .inl hs
      · exact .inr (.inl hs)
    · exact .inr (.inr hs)
  others other hne := (h'.others other hne).trans (h.others other hne)

theorem mono (h : SlugsAdded tableId new db db')
    (hsub : ∀ slug ∈ new, slug ∈ db.fieldSlugs tableId ∨ slug ∈ new') : SlugsAdded tableId new' db db' where
  keyed := h.keyed
  mem slug hs := by
    rcases h.mem slug hs with hs | hs
    · exact .inl hs
    · exact hsub slug hs
  others := h.others

/-- Rows are unique, so no more of them can be new than there are new slugs. -/
theorem length_le (h : SlugsAdded tableId new db db') (hk : db.Keyed) :
    (db'.fieldSlugs tableId).length ≤ (db.fieldSlugs tableId).length + new.length := by
  have hsub : db'.fieldSlugs tableId ⊆ db.fieldSlugs tableId ++ new := fun slug hs =>
    List.mem_append.mpr (h.mem slug hs)
  have hle := (List.subperm_of_subset (h.keyed hk tableId) hsub).length_le
  rwa [List.length_append] at hle

theorem upsert {row : MetaField} (hrow : row.tableId = tableId) (h : upsertMetaField row db = .ok db') :
    SlugsAdded tableId [row.slug] db db' where
  keyed hk other := by
    rw [upsertMetaField_slugs h]
    split
    · rename_i hnew
      exact List.nodup_append.mpr ⟨hk other, List.nodup_singleton _, fun a ha b hb => by
        rintro rfl
        exact hnew.2 (List.mem_singleton.mp hb ▸ ha)⟩
    · exact hk other
  mem slug hs := by
    rw [upsertMetaField_slugs h] at hs
    split at hs
    · exact List.mem_append.mp hs
    · exact .inl hs
  others other hne := by
    rw [upsertMetaField_slugs h, if_neg fun hk => hne (hk.1.trans hrow)]

end SlugsAdded

def FieldMetadataEffect.upserted : FieldMetadataEffect → List String
  | .upsertField _ slug _ _ _ _ => [slug]
  | .removeField _ => []

theorem applyEffect_slugs {effect : FieldMetadataEffect} (h : applyEffect tableId db effect = .ok db') :
    SlugsAdded tableId effect.upserted db db' := by
  cases effect with
  | upsertField name slug dataType required config target => exact .upsert rfl h
  | removeField slug =>
    cases h
    constructor
    · intro hk other
      rw [removeMetaField_slugs]
      exact (hk other).filter _
    · intro s hs
      rw [removeMetaField_slugs] at hs
      exact .inl (List.mem_of_mem_filter hs)
    · intro other hne
      rw [removeMetaField_slugs]
      exact List.filter_eq_self.mpr fun s _ => by simp [hne]

theorem applyEffects_slugs {effects : List FieldMetadataEffect}
    (h : effects.foldlM (applyEffect tableId) db = .ok db') :
    SlugsAdded tableId (effects.flatMap FieldMetadataEffect.upserted) db db' := by
  induction effects generalizing db with
  | nil =>
    cases h
    exact .of_eq rfl
  | cons effect effects ih =>
    rw [List.foldlM_cons] at h
    obtain ⟨db₁, h₁, h⟩ := except_bind_ok.mp h
    exact (applyEffect_slugs h₁).trans (ih h)

theorem upsertFields_slugs {fields : List CreateTableJobField}
    (h : fields.foldlM (fun db field => upsertMetaField (createdField tableId field) db) db = .ok db') :
    SlugsAdded tableId (fields.map CreateTableJobField.name) db db' ∧
      ∀ slug, slug ∈ db.fieldSlugs tableId ∨ slug ∈ fields.map CreateTableJobField.name →
        slug ∈ db'.fieldSlugs tableId := by
  induction fields generalizing db with
  | nil =>
    cases h
    exact ⟨.of_eq rfl, fun slug hs => hs.elim id fun hm => absurd hm List.not_mem_nil⟩
  | cons field fields ih =>
    rw [List.foldlM_cons] at h
    obtain ⟨db₁, h₁, h⟩ := except_bind_ok.mp h
    obtain ⟨hadded, hall⟩ := ih h
    have hfirst : SlugsAdded tableId [field.name] db db₁ := .upsert rfl h₁
    refine ⟨hfirst.trans hadded, fun slug hs => hall slug ?_⟩
    have hold := upsertMetaField_slugs h₁ tableId
    rw [List.map_cons, List.mem_cons] at hs
    rcases hs with hs | rfl | hs
    · left
      rw [hold]
      split
      · exact List.mem_append_left _ hs
      · exact hs
    · left
      rw [hold]
      split
      · exact List.mem_append_right _ (List.mem_singleton.mpr rfl)
      · rename_i hhas
        exact not_not.mp fun hno => hhas ⟨rfl, hno⟩
    · exact .inr hs

/-- A create-table transaction finds or makes its table, then writes the metadata. -/
theorem createTableBody_parts {d : CreateTableJobData} (h : createTableBody d db = .ok db') :
    ∃ db₁, (db₁ = db ∨ ∃ cols, createTableColumns d.fields = .ok cols ∧
        db.tables.lookup d.tableName = none ∧ db₁ = db.setTable d.tableName
          { columns := cols.toAList, rows := [], nextId := 1, createdBy := some d.jobId }) ∧
      (do
        let db ← upsertMetaTable d.tableId d.tableName d.description db₁
        d.fields.foldlM (fun db field => upsertMetaField (createdField d.tableId field) db) db) =
        .ok db' := by
  unfold createTableBody at h
  split at h
  · exact ⟨db, .inl rfl, h⟩
  · rename_i hno
    have hnone : db.tables.lookup d.tableName = none := by
      rw [TenantSchema.hasTable, Bool.or_eq_true, not_or] at hno
      simpa using hno.1
    obtain ⟨cols, hcols, h⟩ := except_bind_ok.mp h
    obtain ⟨db₁, hcreate, h⟩ := except_bind_ok.mp h
    refine ⟨db₁, .inr ⟨cols, hcols, hnone, ?_⟩, h⟩
    unfold TenantSchema.createTable at hcreate
    split at hcreate
    · cases hcreate
    split at hcreate
    · cases hcreate
      rfl
    · cases hcreate

theorem createTableBody_slugs {d : CreateTableJobData} (h : createTableBody d db = .ok db') :
    SlugsAdded d.tableId (d.fields.map CreateTableJobField.name) db db' ∧
      ∀ slug ∈ d.fields.map CreateTableJobField.name, slug ∈ db'.fieldSlugs d.tableId := by
  obtain ⟨db₁, hmade, h⟩ := createTableBody_parts h
  have h₁ : db₁.metaFields = db.metaFields := by
    rcases hmade with rfl | ⟨cols, -, -, rfl⟩ <;> rfl
  obtain ⟨db₂, htable, h⟩ := except_bind_ok.mp h
  have h₂ : db₂.metaFields = db.metaFields := (upsertMetaTable_ok htable).2.1.trans h₁
  obtain ⟨hadded, hall⟩ := upsertFields_slugs h
  refine ⟨⟨fun hk => hadded.keyed fun other => ?_, fun slug hs => ?_, fun other hne => ?_⟩, fun slug hs => hall slug (.inr hs)⟩
  · rw [fieldSlugs_of_eq h₂]
    exact hk other
  · rw [← fieldSlugs_of_eq h₂]
    exact hadded.mem slug hs
  · rw [hadded.others other hne, fieldSlugs_of_eq h₂]

end Slugs

/-! ### Runs -/

section Keyed

variable {pg : Postgres} {db db' : TenantSchema}

theorem executeStep_absent {name : String} {step : FieldEditStep} (ht : db.tables.lookup name = none)
    (h : executeStep pg name step db = .ok db') : db' = db := by
  have hno (c : String) : db.hasColumn name c = false := by simp [TenantSchema.hasColumn, ht]
  cases step with
  | addColumn c dataType required config | addShadowColumn c dataType required config =>
    simp only [executeStep, hno, Bool.false_eq_true, if_false] at h
    obtain ⟨type, -, h⟩ := except_bind_ok.mp h
    simp [TenantSchema.addColumn, ht] at h
  | addRelationColumn c target required =>
    simp [executeStep, hno, TenantSchema.addColumn, ht] at h
  | dropColumn c =>
    simp only [executeStep, hno, Bool.not_false, if_true] at h
    cases h
    rfl
  | backfillColumn c s => simp [executeStep, TenantSchema.copyColumn, ht] at h
  | cutoverColumn c s f =>
    simp only [executeStep, hno, Bool.not_false, Bool.and_self, if_true] at h
    cases h
    rfl

theorem executeStep_metadata {name : String} {step : FieldEditStep}
    (h : executeStep pg name step db = .ok db') :
    db'.metaTables = db.metaTables ∧ db'.metaFields = db.metaFields := by
  cases ht : db.tables.lookup name with
  | some t =>
    obtain ⟨t', hch, -⟩ := executeStep_frame ht h
    exact ⟨hch.metaTables, hch.metaFields⟩
  | none =>
    rw [executeStep_absent ht h]
    exact ⟨rfl, rfl⟩

theorem keyed_write {data : DdlJobData} (hk : db.Keyed) (h : JobWrite pg data db db') : db'.Keyed := by
  cases h with
  | migration => exact hk
  | create h => exact (createTableBody_slugs h).1.keyed hk
  | @step d s _ _ hs h =>
    have hadded : SlugsAdded d.tableId [] db db' := .of_eq (executeStep_metadata h).2
    exact hadded.keyed hk
  | effects h => exact (applyEffects_slugs h).keyed hk

theorem keyed_written {data : DdlJobData} (hk : db.Keyed) (h : ReflTransGen (JobWrite pg data) db db') :
    db'.Keyed := by
  induction h with
  | refl => exact hk
  | tail _ hw ih => exact keyed_write ih hw

theorem keyed_transition {env : Env} {w w' : World} {e : Event} (hk : w.db.Keyed)
    (h : Transition env w e w') : w'.db.Keyed := by
  cases h with
  | refused _ => exact hk
  | createTable _ => exact hk
  | fieldEdit _ => exact hk
  | @attempt job faults mem unfinished => exact keyed_written hk (Job.run_attempted env job faults w.db).written
  | createRow hm ht _ => exact hk
  | updateRow hm ht _ => exact hk

theorem keyed_reach {env : Env} {Ok : World → Event → Prop} {schema : String} {tables : Tables}
    {w : World} (h : Reach (step env) Ok (bootstrapped schema tables) w) : w.db.Keyed :=
  h.invariant (fun _ => List.nodup_nil) fun _ _ _ _ hk _ hs => keyed_transition hk (transition_of_step hs)

end Keyed

end Flexi.DynamicTables
