import Flexi.DynamicTables.Registry

/-!
# The plan behind a field-edit job

An accepted job carries a flat list of steps. They come in groups, one for each
requested edit, and the group and its metadata effect are determined by the edit.
-/

namespace Flexi.DynamicTables
open Flexi.Library Flexi.Tenancy

inductive PlannedEdit where
  | add (column : String) (dataType : FieldDataType) (required : Bool) (config : Option Json)
      (typed : dataType ≠ .RELATION)
  | addRelation (column : String) (target : MetaTable) (required : Bool) (config : Option Json)
  | remove (column : String)
  | modify (column : String) (dataType : FieldDataType) (required : Bool) (config : Option Json)
      (typed : dataType ≠ .RELATION)

namespace PlannedEdit

/-- The column an edit is about. -/
def column : PlannedEdit → String
  | .add c _ _ _ _ => c
  | .addRelation c _ _ _ => c
  | .remove c => c
  | .modify c _ _ _ _ => c

def steps : PlannedEdit → List FieldEditStep
  | .add c dataType required config _ => [.addColumn c dataType required config]
  | .addRelation c target required _ => [.addRelationColumn c target.name required]
  | .remove c => [.dropColumn c]
  | .modify c dataType required config _ =>
    [.addShadowColumn (c ++ SHADOW_COLUMN_SUFFIX) dataType required config,
      .backfillColumn c (c ++ SHADOW_COLUMN_SUFFIX),
      .cutoverColumn c (c ++ SHADOW_COLUMN_SUFFIX) c]

def effect : PlannedEdit → FieldMetadataEffect
  | .add c dataType required config _ => .upsertField c c dataType required config none
  | .addRelation c target required config =>
    .upsertField c c .RELATION required config (some target.id)
  | .remove c => .removeField c
  | .modify c dataType required config _ => .upsertField c c dataType required config none

/-- The columns an edit may write to. -/
def written (p : PlannedEdit) : List String :=
  match p with
  | .modify c _ _ _ _ => [c, c ++ SHADOW_COLUMN_SUFFIX]
  | p => [p.column]

theorem steps_written {p : PlannedEdit} {s : FieldEditStep} (hs : s ∈ p.steps) {c : String}
    (hc : c ∈ s.written) : c ∈ p.written := by
  cases p with
  | add | addRelation | remove =>
    simp only [steps, List.mem_singleton] at hs
    subst hs
    exact hc
  | modify c' dataType required config typed =>
    simp only [steps, List.mem_cons, List.not_mem_nil, or_false] at hs
    rcases hs with rfl | rfl | rfl <;>
      simp only [FieldEditStep.written, written, List.mem_cons, List.not_mem_nil, or_false] at hc ⊢
      <;> tauto

end PlannedEdit

/-- `plan` is what the job `d` was built from, on metadata `db`. -/
structure Plans (db : TenantSchema) (plan : List PlannedEdit) (d : FieldEditJobData) : Prop where
  steps : d.steps = plan.flatMap PlannedEdit.steps
  effects : d.metadataEffects = plan.map PlannedEdit.effect
  targets : ∀ c target required config, .addRelation c target required config ∈ plan →
    target ∈ db.metaTables

theorem buildShadowColumnName_ok {column out : String} (h : buildShadowColumnName column = .ok out) :
    out = column ++ SHADOW_COLUMN_SUFFIX := by
  unfold buildShadowColumnName at h
  split at h
  · rename_i hs
    cases h
    exact (sanitizeIdentifier_ok hs).1
  · cases h

theorem buildFieldEditSteps_ok {db : TenantSchema} {tableId : Uuid} {edit : FieldEditDto}
    {b : List FieldEditStep × FieldMetadataEffect}
    (h : buildFieldEditSteps db tableId edit = .ok b) :
    ∃ p : PlannedEdit, b = (p.steps, p.effect) ∧ p.column = edit.name ∧
      ∀ c target required config, p = .addRelation c target required config →
        target ∈ db.metaTables := by
  unfold buildFieldEditSteps at h
  obtain ⟨column, hname, h⟩ := except_bind_ok.mp h
  have hcol := sanitizeUserIdentifier_ok hname
  subst hcol
  dsimp only at h
  split at h
  · cases h
    exact ⟨.remove edit.name, rfl, rfl, fun _ _ _ _ he => by cases he⟩
  · split at h
    · cases h
    · split at h
      · cases h
      · obtain ⟨target, htarget, h⟩ := except_bind_ok.mp h
        cases h
        refine ⟨.addRelation edit.name target (edit.required.getD false) edit.config, rfl, rfl, ?_⟩
        intro _ _ _ _ he
        cases he
        exact (findMetaTableOrThrow_ok htarget).1
    · rename_i dataType hne _
      cases h
      refine ⟨.add edit.name dataType (edit.required.getD false) edit.config ?_, rfl, rfl, ?_⟩
      · rintro rfl
        exact hne rfl
      · exact fun _ _ _ _ he => by cases he
  · split at h
    · cases h
    · cases h
    · rename_i dataType hne _
      split at h
      · cases h
      · obtain ⟨shadow, hshadow, h⟩ := except_bind_ok.mp h
        have hs := buildShadowColumnName_ok hshadow
        subst hs
        cases h
        refine ⟨.modify edit.name dataType (edit.required.getD false) edit.config ?_, rfl, rfl, ?_⟩
        · rintro rfl
          exact hne rfl
        · exact fun _ _ _ _ he => by cases he

/-- Every accepted field edit has a plan over the columns the request names. -/
theorem plan_of_accepted {db : TenantSchema} {jobId tableId : Uuid} {dto : UpdateFieldDto}
    {d : FieldEditJobData} (h : AcceptedEdit db jobId tableId dto d) :
    ∃ plan, Plans db plan d ∧ plan.map PlannedEdit.column = dto.edits.map FieldEditDto.name := by
  obtain ⟨built, hbuilt, hsteps, heffects⟩ := h.built
  obtain ⟨plan, hplan, hcols, htargets⟩ : ∃ plan : List PlannedEdit,
      built = plan.map (fun p => (p.steps, p.effect)) ∧
        plan.map PlannedEdit.column = dto.edits.map FieldEditDto.name ∧
        ∀ c target required config, .addRelation c target required config ∈ plan →
          target ∈ db.metaTables := by
    clear hsteps heffects
    generalize dto.edits = edits at hbuilt
    induction hbuilt with
    | nil => exact ⟨[], rfl, rfl, fun _ _ _ _ hm => by cases hm⟩
    | cons hb _ ih =>
      obtain ⟨plan, rfl, hcols, htargets⟩ := ih
      obtain ⟨p, rfl, hc, ht⟩ := buildFieldEditSteps_ok hb
      refine ⟨p :: plan, rfl, by simp [hc, hcols], fun c target required config hm => ?_⟩
      rcases List.mem_cons.mp hm with he | hm
      · exact ht c target required config he.symm
      · exact htargets c target required config hm
  subst hplan
  refine ⟨plan, ⟨?_, ?_, htargets⟩, hcols⟩
  · rw [hsteps, List.map_map, List.flatMap_def]
    rfl
  · rw [heffects, List.map_map]
    rfl

end Flexi.DynamicTables
