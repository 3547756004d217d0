import Flexi.DynamicTables.RelationNames

/-!
# What field edits declare

A table's fields as `_meta_fields` declares them, and what the effects of a field-edit job
do to them.
-/

namespace Flexi.DynamicTables
open Flexi.Library Flexi.Tenancy Relation

/-- A field as its table declares it. -/
structure Field where
  slug : String
  dataType : FieldDataType
  required : Bool
  config : Option (List (String × Json))
  relationTarget : Option Uuid

def toMetadataConfig : Option Json → Option (List (String × Json))
  | some (.obj members) => some members
  | _ => none

def MetaField.field (f : MetaField) : Field where
  slug := f.slug
  dataType := f.dataType
  required := f.required
  config := toMetadataConfig f.config
  relationTarget := f.relationTargetTableId

/-- An effect on the declared fields. -/
def applyToFields (fields : List Field) : FieldMetadataEffect → List Field
  | .removeField slug => fields.filter fun f => f.slug != slug
  | .upsertField _ slug dataType required config relationTarget =>
    if fields.any fun f => f.slug == slug then
      fields.map fun f => if f.slug == slug then
        { slug := slug, dataType := dataType, required := required,
          config := toMetadataConfig config, relationTarget := relationTarget } else f
    else fields ++
      [{ slug := slug, dataType := dataType, required := required,
         config := toMetadataConfig config, relationTarget := relationTarget }]

/-- The effect of `buildFieldEditSteps`, which besides looks up the table a relation is to point
at and the type a modified field has. -/
def editEffect (edit : FieldEditDto) : Option FieldMetadataEffect :=
  match sanitizeUserIdentifier edit.name with
  | .error _ => none
  | .ok columnName =>
    match edit.operation, edit.dataType with
    | .remove, _ => some (.removeField columnName)
    | .add, some .RELATION => edit.relatedTableId.map fun relatedTableId =>
      .upsertField edit.name columnName .RELATION (edit.required.getD false) edit.config
        (some relatedTableId)
    | .modify, some .RELATION => none
    | _, some dataType => some
      (.upsertField edit.name columnName dataType (edit.required.getD false) edit.config none)
    | _, none => none

section Declared

variable {fields done rest : List Field} {f : Field} {slug name : String}

theorem slug_bne (h : ∀ g ∈ fields, g.slug ≠ slug) : ∀ g ∈ fields, (g.slug == slug) = false :=
  fun g hg => beq_eq_false_iff_ne.mpr (h g hg)

theorem applyToFields_remove (hdone : ∀ g ∈ done, g.slug ≠ f.slug)
    (hrest : ∀ g ∈ rest, g.slug ≠ f.slug) :
    applyToFields (done ++ f :: rest) (.removeField f.slug) = done ++ rest := by
  rw [applyToFields, List.filter_append, List.filter_cons_of_neg (by simp),
    List.filter_eq_self.mpr fun g hg => bne_iff_ne.mpr (hdone g hg),
    List.filter_eq_self.mpr fun g hg => bne_iff_ne.mpr (hrest g hg)]

theorem applyToFields_replace {dataType : FieldDataType} {required : Bool} {config : Option Json}
    {relationTarget : Option Uuid} (hdone : ∀ g ∈ done, g.slug ≠ f.slug)
    (hrest : ∀ g ∈ rest, g.slug ≠ f.slug) :
    applyToFields (done ++ f :: rest)
      (.upsertField name f.slug dataType required config relationTarget) =
      done ++ { slug := f.slug, dataType := dataType, required := required,
                config := toMetadataConfig config, relationTarget := relationTarget } :: rest := by
  have hkeep {gs : List Field} (hgs : ∀ g ∈ gs, g.slug ≠ f.slug) (new : Field) :
      gs.map (fun g => if g.slug == f.slug then new else g) = gs := by
    calc gs.map (fun g => if g.slug == f.slug then new else g)
      _ = gs.map id := List.map_congr_left fun g hg => if_neg (by rw [slug_bne hgs g hg]; decide)
      _ = gs := List.map_id gs
  have hany : ((done ++ f :: rest).any fun g => g.slug == f.slug) = true :=
    List.any_eq_true.mpr
      ⟨f, List.mem_append_right done List.mem_cons_self, beq_self_eq_true f.slug⟩
  rw [applyToFields, if_pos hany, List.map_append, List.map_cons, hkeep hdone, hkeep hrest,
    if_pos (beq_self_eq_true f.slug)]

theorem applyToFields_append {dataType : FieldDataType} {required : Bool} {config : Option Json}
    {relationTarget : Option Uuid} (h : ∀ g ∈ fields, g.slug ≠ slug) :
    applyToFields fields (.upsertField name slug dataType required config relationTarget) =
      fields ++ [{ slug := slug, dataType := dataType, required := required,
                   config := toMetadataConfig config, relationTarget := relationTarget }] := by
  have hany : (fields.any fun g => g.slug == slug) = false :=
    List.any_eq_false.mpr fun g hg => by rw [slug_bne h g hg]; decide
  rw [applyToFields, hany]
  rfl

end Declared

section Effects

variable {db db' : TenantSchema} {tableId : Uuid}

theorem effect_of_buildFieldEditSteps {edit : FieldEditDto}
    {b : List FieldEditStep × FieldMetadataEffect}
    (h : buildFieldEditSteps db tableId edit = .ok b) : editEffect edit = some b.2 := by
  unfold buildFieldEditSteps at h
  obtain ⟨column, hname, h⟩ := except_bind_ok.mp h
  unfold editEffect
  rw [hname]
  dsimp only at h ⊢
  split at h
  · rename_i hop
    cases h
    rw [hop]
  · rename_i hop
    split at h
    · cases h
    · rename_i htype
      split at h
      · cases h
      · rename_i id hid
        obtain ⟨target, htarget, h⟩ := except_bind_ok.mp h
        cases h
        rw [hop, htype, hid, ← (findMetaTableOrThrow_ok htarget).2]
        rfl
    · rename_i dataType hne htype
      cases h
      rw [hop, htype]
      cases dataType with
      | RELATION => exact absurd rfl hne
      | _ => rfl
  · rename_i hop
    split at h
    · cases h
    · cases h
    · rename_i dataType hne htype
      split at h
      · cases h
      · obtain ⟨shadow, -, h⟩ := except_bind_ok.mp h
        cases h
        rw [hop, htype]
        cases dataType with
        | RELATION => exact absurd rfl hne
        | _ => rfl

theorem any_fieldsOf (slug : String) :
    (((db.fieldsOf tableId).map MetaField.field).any fun f => f.slug == slug) =
      db.metaFields.any fun f => f.tableId == tableId && f.slug == slug := by
  rw [TenantSchema.fieldsOf, List.any_map, List.any_filter]
  rfl

/-- The effects of a job do to the rows of `_meta_fields` what they do to the declared fields. -/
theorem fieldsOf_applyEffect {effect : FieldMetadataEffect}
    (h : applyEffect tableId db effect = .ok db') :
    (db'.fieldsOf tableId).map MetaField.field =
      applyToFields ((db.fieldsOf tableId).map MetaField.field) effect := by
  cases effect with
  | removeField slug =>
    cases h
    rw [applyToFields, TenantSchema.fieldsOf, TenantSchema.fieldsOf, removeMetaField,
      List.filter_map, List.filter_filter, List.filter_filter]
    refine congrArg _ (List.filter_congr fun f _ => ?_)
    have hslug : (MetaField.field f).slug = f.slug := rfl
    rw [Function.comp, hslug]
    cases f.tableId == tableId <;> simp [bne]
  | upsertField name slug dataType required config target =>
    unfold applyEffect upsertMetaField at h
    dsimp only at h
    rw [applyToFields, any_fieldsOf]
    split at h
    · cases h
    split at h
    · rename_i hany
      cases h
      rw [if_pos hany, TenantSchema.fieldsOf, TenantSchema.fieldsOf, List.filter_map, List.map_map,
        List.map_map]
      have hsame (f : MetaField) : ((if (f.tableId == tableId && f.slug == slug) = true then
          ({ tableId := tableId, name := name, slug := slug, dataType := dataType,
             required := required, config := config, relationTargetTableId := target } : MetaField)
          else f).tableId == tableId) = (f.tableId == tableId) := by
        split
        · rename_i hf
          rw [(Bool.and_eq_true_iff.mp hf).1, beq_self_eq_true]
        · rfl
      simp only [Function.comp_def]
      rw [List.filter_congr fun f _ => hsame f]
      refine List.map_congr_left fun f hf => ?_
      have hid : (f.tableId == tableId) = true := (List.mem_filter.mp hf).2
      simp only [hid, Bool.true_and, MetaField.field]
      by_cases hslug : (f.slug == slug) = true
      · rw [if_pos hslug]
        exact (if_pos hslug).symm
      · rw [if_neg hslug]
        exact (if_neg hslug).symm
    · rename_i hany
      cases h
      rw [if_neg hany, TenantSchema.fieldsOf, TenantSchema.fieldsOf, List.filter_append,
        List.map_append]
      simp [MetaField.field]

theorem fieldsOf_applyEffects {effects : List FieldMetadataEffect}
    (h : effects.foldlM (applyEffect tableId) db = .ok db') :
    (db'.fieldsOf tableId).map MetaField.field =
      effects.foldl applyToFields ((db.fieldsOf tableId).map MetaField.field) := by
  induction effects generalizing db with
  | nil =>
    cases h
    rfl
  | cons effect effects ih =>
    rw [List.foldlM_cons] at h
    obtain ⟨db₁, h₁, h⟩ := except_bind_ok.mp h
    rw [ih h, fieldsOf_applyEffect h₁, List.foldl_cons]

end Effects

/-! ### What every field is -/

/-- A field is named after its slug, and points at a table only if it is a relation. -/
def MetaField.Declared (f : MetaField) : Prop :=
  f.name = f.slug ∧ (f.dataType ≠ .RELATION → f.relationTargetTableId = none)

def FieldMetadataEffect.Declared : FieldMetadataEffect → Prop
  | .upsertField name slug dataType _ _ relationTarget =>
    name = slug ∧ (dataType ≠ .RELATION → relationTarget = none)
  | .removeField _ => True

def JobDeclared : DdlJobData → Prop
  | .createTable _ => True
  | .fieldEdit d => ∀ effect ∈ d.metadataEffects, effect.Declared

/-- The fields in the metadata and the effects on the queue. -/
structure AllDeclared (w : World) : Prop where
  fields : ∀ f ∈ w.db.metaFields, f.Declared
  jobs : ∀ job ∈ w.jobs, JobDeclared job.data

section Declared

variable {env : Env} {pg : Postgres} {cfg : Config} {db db' : TenantSchema} {w w' : World}

theorem effect_declared (p : PlannedEdit) : p.effect.Declared := by
  cases p with
  | add c dataType required config typed => exact ⟨rfl, fun _ => rfl⟩
  | addRelation c target required config => exact ⟨rfl, fun h => absurd rfl h⟩
  | remove c => trivial
  | modify c dataType required config typed => exact ⟨rfl, fun _ => rfl⟩

theorem enqueueFieldEdit_declared {pending : List DdlJobData} {jobId tableId : Uuid}
    {dto : UpdateFieldDto} {d : FieldEditJobData}
    (h : enqueueFieldEdit cfg db pending jobId tableId dto = .ok d) :
    JobDeclared (.fieldEdit d) := by
  obtain ⟨plan, hplan, -⟩ := plan_of_accepted (enqueueFieldEdit_ok h)
  intro effect heffect
  rw [hplan.effects] at heffect
  obtain ⟨p, -, rfl⟩ := List.mem_map.mp heffect
  exact effect_declared p

theorem declared_applyEffects {tableId : Uuid} {effects : List FieldMetadataEffect}
    (hdb : ∀ f ∈ db.metaFields, f.Declared) (heffects : ∀ effect ∈ effects, effect.Declared)
    (h : effects.foldlM (applyEffect tableId) db = .ok db') : ∀ f ∈ db'.metaFields, f.Declared := by
  induction effects generalizing db with
  | nil =>
    cases h
    exact hdb
  | cons effect effects ih =>
    rw [List.foldlM_cons] at h
    obtain ⟨db₁, h₁, h⟩ := except_bind_ok.mp h
    refine ih (fun f hf => ?_) (fun e he => heffects e (List.mem_cons_of_mem effect he)) h
    have heffect := heffects effect List.mem_cons_self
    cases effect with
    | upsertField name slug dataType required config target =>
      obtain ⟨-, -, -, -, hmem⟩ := upsertMetaField_ok h₁
      rcases (hmem f).mp hf with rfl | ⟨hf, -⟩
      · exact heffect
      · exact hdb f hf
    | removeField slug =>
      cases h₁
      exact hdb f (List.mem_filter.mp hf).1

theorem declared_write {data : DdlJobData} (hdata : JobDeclared data)
    (h : ∀ f ∈ db.metaFields, f.Declared) (hw : JobWrite pg data db db') :
    ∀ f ∈ db'.metaFields, f.Declared := by
  cases hw with
  | migration => exact h
  | @create d _ _ hbody =>
    obtain ⟨db₁, hmade, hbody⟩ := createTableBody_parts hbody
    have hfields₁ : db₁.metaFields = db.metaFields := by
      rcases hmade with rfl | ⟨cols, -, -, rfl⟩ <;> rfl
    obtain ⟨db₂, htable, hbody⟩ := except_bind_ok.mp hbody
    have hfields₂ : db₂.metaFields = db.metaFields := (upsertMetaTable_ok htable).2.1.trans hfields₁
    intro f hf
    rcases (upsertFields_ok hbody).mem f hf with ⟨field, -, rfl⟩ | ⟨hf, -⟩
    · exact ⟨rfl, fun _ => rfl⟩
    · exact h f (hfields₂ ▸ hf)
  | step _ hstep => exact (executeStep_metadata hstep).2 ▸ h
  | effects heffects => exact declared_applyEffects h hdata heffects

theorem declared_written {data : DdlJobData} (hdata : JobDeclared data)
    (h : ∀ f ∈ db.metaFields, f.Declared) (hw : ReflTransGen (JobWrite pg data) db db') :
    ∀ f ∈ db'.metaFields, f.Declared := by
  induction hw with
  | refl => exact h
  | tail _ hw ih => exact declared_write hdata ih hw

theorem AllDeclared.enqueue (h : AllDeclared w) {data : DdlJobData} (hdata : JobDeclared data)
    (n : ℕ) : ∀ job ∈ (w.enqueue data n).jobs, JobDeclared job.data := by
  intro job hjob
  rcases List.mem_append.mp hjob with hjob | hjob
  · exact h.jobs job hjob
  · rw [List.mem_singleton.mp hjob]
    exact hdata

theorem declared_transition {e : Event} (h : AllDeclared w) (ht : Transition env w e w') :
    AllDeclared w' := by
  cases ht with
  | refused _ => exact ⟨h.fields, h.jobs⟩
  | @createTable dto d _ =>
    have hdata : JobDeclared (.createTable d) := trivial
    exact ⟨h.fields, h.enqueue hdata 2⟩
  | fieldEdit haccepted => exact ⟨h.fields, h.enqueue (enqueueFieldEdit_declared haccepted) 1⟩
  | @attempt job faults hmem unfinished =>
    have hrun := Job.run_attempted env job faults w.db
    refine ⟨declared_written (h.jobs job hmem) h.fields hrun.written, fun k hk => ?_⟩
    obtain ⟨k₀, hk₀, rfl⟩ := List.mem_map.mp hk
    split
    · rw [hrun.data]
      exact h.jobs job hmem
    · exact h.jobs k₀ hk₀
  | createRow _ _ _ => exact ⟨h.fields, h.jobs⟩
  | updateRow _ _ _ => exact ⟨h.fields, h.jobs⟩

theorem declared_reach {Ok : World → Event → Prop} {schema : String} {tables : Tables}
    (h : Reach (step env) Ok (bootstrapped schema tables) w) : AllDeclared w :=
  h.invariant ⟨fun _ hf => absurd hf List.not_mem_nil, fun _ hjob => absurd hjob List.not_mem_nil⟩
    fun _ _ _ _ hk _ hs => declared_transition hk (transition_of_step hs)

end Declared

end Flexi.DynamicTables
