import Flexi.DynamicTables.EditPlan
import Flexi.DynamicTables.TableLayout

/-!
# Re-running a field edit

A failed attempt leaves the columns somewhere between the start and the end of
the job, and the next attempt starts from the first step again. For a job whose
steps fit the table a complete pass ends in the same columns, wherever the
attempts before it stopped.
-/

namespace Flexi.DynamicTables
open Flexi.Library Flexi.Tenancy

/-- The columns of a table by name. -/
abbrev ColumnMap := String → Option ColumnDef

def PhysTable.columnMap (t : PhysTable) : ColumnMap := fun c => t.columns.lookup c

/-! ### Steps that fit a table -/

/-- The column `addTypedColumn` makes. -/
def typedDef (dataType : FieldDataType) (required : Bool) : Option ColumnDef :=
  match addTypedColumn dataType with
  | .ok type => some (typedColumn type required)
  | .error _ => none

/-- The columns after a step that does what its name says. -/
def FieldEditStep.columnsAfter (schema : String) (D : ColumnMap) : FieldEditStep → ColumnMap
  | .addColumn c dataType required _ => Function.update D c (typedDef dataType required)
  | .addRelationColumn c target required =>
    Function.update D c (some (DynamicTables.addRelationColumn (schema ++ "." ++ target) required))
  | .dropColumn c => Function.update D c none
  | .addShadowColumn s dataType _ _ => Function.update D s (typedDef dataType false)
  | .backfillColumn _ _ => D
  | .cutoverColumn c s f =>
    Function.update (Function.update (Function.update D c none) s none) f (D s)

/-- A step finds the names it adds free and the column it converts present, and it
leaves the system columns alone. -/
def FieldEditStep.fits (D : ColumnMap) : FieldEditStep → Bool
  | .addColumn c _ _ _ => (D c).isNone
  | .addRelationColumn c _ _ => (D c).isNone
  | .dropColumn c => !systemColumns.contains c
  | .addShadowColumn s _ _ _ => (D s).isNone
  | .backfillColumn c _ => (D c).isSome
  | .cutoverColumn c _ _ => !systemColumns.contains c

/-- Every step of a job fits the columns the steps before it leave. -/
def stepsFit (schema : String) : ColumnMap → List FieldEditStep → Bool
  | _, [] => true
  | D, s :: rest => s.fits D && stepsFit schema (s.columnsAfter schema D) rest

/-- The names under which a job's `modify` edits build their new columns. -/
def shadowNames (steps : List FieldEditStep) : List String :=
  steps.filterMap fun s => match s with
    | .addShadowColumn s _ _ _ => some s
    | _ => none

/-- No other edit of the job is about one of these names. -/
def shadowsApart (steps : List FieldEditStep) : Bool :=
  steps.all fun s => match s with
    | .addColumn c _ _ _ | .addRelationColumn c _ _ | .dropColumn c | .cutoverColumn c _ _ =>
      !(shadowNames steps).contains c
    | _ => true

/-! ### The same for the plan -/

namespace PlannedEdit

/-- What an edit leaves in its column. -/
def defines (schema : String) : PlannedEdit → Option ColumnDef
  | .add _ dataType required _ _ => typedDef dataType required
  | .addRelation _ target required _ =>
    some (addRelationColumn (schema ++ "." ++ target.name) required)
  | .remove _ => none
  | .modify _ dataType _ _ _ => typedDef dataType false

def apply (schema : String) (D : ColumnMap) (p : PlannedEdit) : ColumnMap :=
  Function.update D p.column (p.defines schema)

def Fits (D : ColumnMap) : PlannedEdit → Prop
  | .add c _ _ _ _ => D c = none
  | .addRelation c _ _ _ => D c = none
  | .remove c => c ∉ systemColumns
  | .modify c _ _ _ _ =>
    c ∉ systemColumns ∧ (D c).isSome ∧ D (c ++ SHADOW_COLUMN_SUFFIX) = none

theorem column_mem_written (p : PlannedEdit) : p.column ∈ p.written := by
  cases p <;> simp [written, column]

end PlannedEdit

def PlanFits (schema : String) : ColumnMap → List PlannedEdit → Prop
  | _, [] => True
  | D, p :: rest => p.Fits D ∧ PlanFits schema (p.apply schema D) rest

/-- The columns an undisturbed run of the plan ends in. -/
def planColumns (schema : String) (D : ColumnMap) (plan : List PlannedEdit) : ColumnMap :=
  plan.foldl (PlannedEdit.apply schema) D

def ShadowsApart (plan : List PlannedEdit) : Prop :=
  ∀ c dataType required config typed, .modify c dataType required config typed ∈ plan →
    ∀ p ∈ plan, p.column ≠ c ++ SHADOW_COLUMN_SUFFIX

theorem ne_shadow (c : String) : c ≠ c ++ SHADOW_COLUMN_SUFFIX := by
  intro h
  have hl := congrArg String.length h
  rw [String.length_append] at hl
  have hs : SHADOW_COLUMN_SUFFIX.length = 8 := by decide
  omega

theorem shadow_inj {c c' : String} (h : c ++ SHADOW_COLUMN_SUFFIX = c' ++ SHADOW_COLUMN_SUFFIX) :
    c = c' := by
  have hl := congrArg String.toList h
  rw [String.toList_append, String.toList_append] at hl
  exact String.toList_inj.mp (List.append_cancel_right hl)

theorem typedDef_ok {dataType : FieldDataType} (h : dataType ≠ .RELATION) (required : Bool) :
    ∃ type, addTypedColumn dataType = .ok type ∧
      typedDef dataType required = some (typedColumn type required) := by
  cases dataType with
  | RELATION => exact absurd rfl h
  | _ => exact ⟨_, rfl, rfl⟩

theorem typedDef_of_ok {dataType : FieldDataType} {type : PgType}
    (h : addTypedColumn dataType = .ok type) (required : Bool) :
    typedDef dataType required = some (typedColumn type required) := by
  rw [typedDef, h]

section Plan

variable {schema : String}

theorem planColumns_append (D : ColumnMap) (before after : List PlannedEdit) :
    planColumns schema D (before ++ after) =
      planColumns schema (planColumns schema D before) after :=
  List.foldl_append

theorem planColumns_of_not_column {plan : List PlannedEdit} {n : String}
    (h : ∀ p ∈ plan, p.column ≠ n) (D : ColumnMap) : planColumns schema D plan n = D n := by
  induction plan generalizing D with
  | nil => rfl
  | cons p plan ih =>
    have hn := h p List.mem_cons_self
    have hrest := ih (fun q hq => h q (List.mem_cons_of_mem p hq)) (p.apply schema D)
    rw [planColumns, List.foldl_cons]
    refine hrest.trans ?_
    exact Function.update_of_ne (Ne.symm hn) _ _

theorem PlanFits.at {D : ColumnMap} {before after : List PlannedEdit} {p : PlannedEdit}
    (h : PlanFits schema D (before ++ p :: after)) : p.Fits (planColumns schema D before) := by
  induction before generalizing D with
  | nil => exact h.1
  | cons q before ih => exact ih h.2

theorem planFits_of_stepsFit {plan : List PlannedEdit} {D : ColumnMap}
    (h : stepsFit schema D (plan.flatMap PlannedEdit.steps) = true) : PlanFits schema D plan := by
  induction plan generalizing D with
  | nil => trivial
  | cons p plan ih =>
    rw [List.flatMap_cons] at h
    cases p with
    | add c dataType required config typed =>
      obtain ⟨hfit, hrest⟩ := Bool.and_eq_true_iff.mp h
      exact ⟨Option.isNone_iff_eq_none.mp hfit, ih hrest⟩
    | addRelation c target required config =>
      obtain ⟨hfit, hrest⟩ := Bool.and_eq_true_iff.mp h
      exact ⟨Option.isNone_iff_eq_none.mp hfit, ih hrest⟩
    | remove c =>
      obtain ⟨hfit, hrest⟩ := Bool.and_eq_true_iff.mp h
      have hsys : c ∉ systemColumns := by simpa [FieldEditStep.fits] using hfit
      exact ⟨hsys, ih hrest⟩
    | modify c dataType required config typed =>
      obtain ⟨hshadow, h⟩ := Bool.and_eq_true_iff.mp h
      obtain ⟨hcol, h⟩ := Bool.and_eq_true_iff.mp h
      obtain ⟨hfit, hrest⟩ := Bool.and_eq_true_iff.mp h
      have hne := ne_shadow c
      have hsys : c ∉ systemColumns := by simpa [FieldEditStep.fits] using hfit
      have hnone : D (c ++ SHADOW_COLUMN_SUFFIX) = none := Option.isNone_iff_eq_none.mp hshadow
      have hsome : (D c).isSome := by
        simpa [FieldEditStep.fits, FieldEditStep.columnsAfter, Function.update_of_ne hne] using hcol
      refine ⟨⟨hsys, hsome, hnone⟩, ih ?_⟩
      -- building the shadow column and moving it into place amounts to `apply`
      have he : PlannedEdit.apply schema D (.modify c dataType required config typed) =
          (FieldEditStep.cutoverColumn c (c ++ SHADOW_COLUMN_SUFFIX) c).columnsAfter schema
            (Function.update D (c ++ SHADOW_COLUMN_SUFFIX) (typedDef dataType false)) := by
        funext n
        simp only [FieldEditStep.columnsAfter, PlannedEdit.apply, PlannedEdit.column,
          PlannedEdit.defines, Function.update_apply]
        by_cases hn : n = c
        · simp [hn]
        · by_cases hs : n = c ++ SHADOW_COLUMN_SUFFIX
          · simp [hs, hnone]
          · simp [hn, hs]
      rw [he]
      exact hrest

theorem shadowsApart_plan {plan : List PlannedEdit}
    (h : shadowsApart (plan.flatMap PlannedEdit.steps) = true) : ShadowsApart plan := by
  intro c dataType required config typed hm p hp
  have hshadow : c ++ SHADOW_COLUMN_SUFFIX ∈ shadowNames (plan.flatMap PlannedEdit.steps) := by
    refine List.mem_filterMap.mpr
      ⟨.addShadowColumn (c ++ SHADOW_COLUMN_SUFFIX) dataType required config, ?_, rfl⟩
    exact List.mem_flatMap.mpr ⟨_, hm, List.mem_cons_self⟩
  intro he
  rw [← he] at hshadow
  have hall := List.all_eq_true.mp h
  cases p with
  | add c' dataType' required' config' typed' =>
    have hs := hall _ (List.mem_flatMap.mpr ⟨_, hp, List.mem_cons_self⟩)
    simp only [Bool.not_eq_true', List.contains_eq_mem, decide_eq_false_iff_not] at hs
    exact hs hshadow
  | addRelation c' target required' config' =>
    have hs := hall _ (List.mem_flatMap.mpr ⟨_, hp, List.mem_cons_self⟩)
    simp only [Bool.not_eq_true', List.contains_eq_mem, decide_eq_false_iff_not] at hs
    exact hs hshadow
  | remove c' =>
    have hs := hall _ (List.mem_flatMap.mpr ⟨_, hp, List.mem_cons_self⟩)
    simp only [Bool.not_eq_true', List.contains_eq_mem, decide_eq_false_iff_not] at hs
    exact hs hshadow
  | modify c' dataType' required' config' typed' =>
    have hs := hall (.cutoverColumn c' (c' ++ SHADOW_COLUMN_SUFFIX) c')
      (List.mem_flatMap.mpr ⟨_, hp, by simp [PlannedEdit.steps]⟩)
    simp only [Bool.not_eq_true', List.contains_eq_mem, decide_eq_false_iff_not] at hs
    exact hs hshadow

end Plan

/-! ### Partly executed plans -/

/-- Every column of `C` is as in `D`, or as some edit of `plan` that writes to it
leaves it. -/
def Partway (schema : String) (plan : List PlannedEdit) (D C : ColumnMap) : Prop :=
  ∀ n, C n = D n ∨ ∃ p ∈ plan, n ∈ p.written ∧ C n = p.defines schema

section Partway

variable {schema : String} {plan : List PlannedEdit} {D C : ColumnMap}

theorem Partway.refl (plan : List PlannedEdit) (D : ColumnMap) : Partway schema plan D D :=
  fun _ => .inl rfl

theorem Partway.nil (h : Partway schema [] D C) : C = D := by
  funext n
  rcases h n with h | ⟨p, hp, -⟩
  · exact h
  · cases hp

theorem written_shadow (ha : ShadowsApart plan) {c : String} {dataType : FieldDataType}
    {required : Bool} {config : Option Json} {typed : dataType ≠ .RELATION}
    (hm : .modify c dataType required config typed ∈ plan) {q : PlannedEdit} (hq : q ∈ plan)
    (h : c ++ SHADOW_COLUMN_SUFFIX ∈ q.written) : c ∈ q.written := by
  have hne := ha c dataType required config typed hm q hq
  cases q with
  | add | addRelation | remove =>
    simp only [PlannedEdit.written, List.mem_singleton] at h
    exact absurd h.symm hne
  | modify c' dataType' required' config' typed' =>
    simp only [PlannedEdit.written, List.mem_cons, List.not_mem_nil, or_false] at h
    rcases h with h | h
    · exact absurd h.symm hne
    · rw [shadow_inj h]
      exact List.mem_cons_self

/-- A write of what some edit of the plan leaves there keeps a table partway. -/
theorem Partway.write {C' : ColumnMap} {p : PlannedEdit} {c : String}
    (h : Partway schema plan D C) (hp : p ∈ plan) (hc : c ∈ p.written)
    (hkeep : ∀ n, n ≠ c → C' n = C n) (hnew : C' c = p.defines schema) :
    Partway schema plan D C' := by
  intro n
  by_cases hn : n = c
  · subst hn
    exact .inr ⟨p, hp, hc, hnew⟩
  · rw [hkeep n hn]
    exact h n

/-- Once an edit is done, the rest of the plan accounts for the columns. -/
theorem Partway.advance {C' : ColumnMap} {p : PlannedEdit} {rest : List PlannedEdit}
    (h : Partway schema (p :: rest) D C) (hkeep : ∀ n, n ∉ p.written → C' n = C n)
    (hcol : ∃ q ∈ p :: rest, p.column ∈ q.written ∧ C' p.column = q.defines schema)
    (hother : ∀ n ∈ p.written, n ≠ p.column → C' n = D n) :
    Partway schema rest (p.apply schema D) C' := by
  intro n
  by_cases hn : n = p.column
  · subst hn
    obtain ⟨q, hq, hw, hC⟩ := hcol
    rcases List.mem_cons.mp hq with rfl | hq
    · left
      rw [hC, PlannedEdit.apply, Function.update_self]
    · exact .inr ⟨q, hq, hw, hC⟩
  · have hD : p.apply schema D n = D n := Function.update_of_ne hn _ _
    rw [hD]
    by_cases hw : n ∈ p.written
    · exact .inl (hother n hw hn)
    · rw [hkeep n hw]
      rcases h n with h | ⟨q, hq, hqw, hC⟩
      · exact .inl h
      · rcases List.mem_cons.mp hq with rfl | hq
        · exact absurd hqw hw
        · exact .inr ⟨q, hq, hqw, hC⟩

end Partway

/-! ### One attempt -/

/-- What the assertions about one attempt refer to: the edited table, the
metadata, the plan, the columns before the first attempt and the transactions
committed by earlier attempts. -/
structure EditGhost where
  name : String
  schema : String
  metaTables : List MetaTable
  metaFields : List MetaField
  plan : List PlannedEdit
  start : ColumnMap
  committed : ℕ

/-- The table is partway through the plan, untouched if nothing was committed, and
its columns satisfy `X`. -/
def EditGhost.Held (g : EditGhost) (X : ColumnMap → Prop) : Assertion := fun db n =>
  ∃ t, db.tables.lookup g.name = some t ∧ db.metaTables = g.metaTables ∧
    db.metaFields = g.metaFields ∧ db.schema = g.schema ∧
    Partway g.schema g.plan g.start t.columnMap ∧
    (g.committed + n = 0 → t.columnMap = g.start) ∧ X t.columnMap

/-- What a step does to columns that satisfy `X`. -/
def EditGhost.Moves (g : EditGhost) (pg : Postgres) (X : ColumnMap → Prop) (s : FieldEditStep)
    (X' : ColumnMap → Prop) : Prop :=
  ∀ db db' t, db.tables.lookup g.name = some t → db.schema = g.schema →
    executeStep pg g.name s db = .ok db' → Partway g.schema g.plan g.start t.columnMap →
    X t.columnMap → ∃ t', TableChange g.name t t' db db' ∧
      Partway g.schema g.plan g.start t'.columnMap ∧ X' t'.columnMap

section Attempt

variable {g : EditGhost} {pg : Postgres} {X X' : ColumnMap → Prop}

theorem held_stable (g : EditGhost) (X : ColumnMap → Prop) : (g.Held X).Stable :=
  fun _ _ _ h => h

theorem EditGhost.Held.weaken {db : TenantSchema} {n : ℕ} (h : g.Held X db n) :
    g.Held (fun _ => True) db n := by
  obtain ⟨t, ht, hM, hF, hS, hp, hc, -⟩ := h
  exact ⟨t, ht, hM, hF, hS, hp, hc, trivial⟩

theorem runStep_held {d : FieldEditJobData} {s : FieldEditStep} (hname : d.tableName = g.name)
    (hm : g.Moves pg X s X') :
    TxProg.Triple (fun st => g.Held X st.store st.committed) (runStep pg d s)
      (fun _ st => g.Held X' st.store st.committed)
      fun st => g.Held (fun _ => True) st.store st.committed := by
  refine (recorded_rule (held_stable g X) (held_stable g X') ?_).conseq (fun _ h => h)
    (fun _ _ h => h) fun _ h => h.elim EditGhost.Held.weaken EditGhost.Held.weaken
  rintro db db' n ⟨t, ht, hM, hF, hS, hp, -, hX⟩ hstep
  rw [hname] at hstep
  obtain ⟨t', hch, hp', hX'⟩ := hm db db' t ht hS hstep hp hX
  refine ⟨t', hch.after, hch.metaTables.trans hM, hch.metaFields.trans hF, hch.schema.trans hS, hp',
    fun h0 => ?_, hX'⟩
  omega

/-- The step of an `add` edit, typed or relation: it makes its column or finds
the one an earlier attempt made. -/
theorem moves_add {before rest : List PlannedEdit} {p : PlannedEdit} {s : FieldEditStep}
    (hplan : g.plan = before ++ p :: rest) (hwritten : p.written = [p.column])
    (hfree : planColumns g.schema g.start before p.column = none)
    (hstep : ∀ db db' t, db.tables.lookup g.name = some t → db.schema = g.schema →
      executeStep pg g.name s db = .ok db' → ∃ t', TableChange g.name t t' db db' ∧
        KeepsOutside [p.column] t t' ∧
        (t' = t ∧ (t.columns.lookup p.column).isSome ∨
          t'.columns.lookup p.column = p.defines g.schema)) :
    g.Moves pg (Partway g.schema (p :: rest) (planColumns g.schema g.start before)) s
      (Partway g.schema rest (p.apply g.schema (planColumns g.schema g.start before))) := by
  intro db db' t ht hS hex hp hX
  obtain ⟨t', hch, hk, hcase⟩ := hstep db db' t ht hS hex
  have hmem : p ∈ g.plan := by
    rw [hplan]
    simp
  have hkeep : ∀ n, n ≠ p.column → t'.columnMap n = t.columnMap n :=
    fun n hn => hk.columns n (by simpa using hn)
  have hcol : ∃ q ∈ p :: rest, p.column ∈ q.written ∧ t'.columnMap p.column = q.defines g.schema := by
    rcases hcase with ⟨rfl, hsome⟩ | hnew
    · -- found: not a column of the start, so an edit still to come leaves the same
      rcases hX p.column with h | ⟨q, hq, hw, h⟩
      · rw [hfree] at h
        rw [show t'.columns.lookup p.column = none from h] at hsome
        cases hsome
      · exact ⟨q, hq, hw, h⟩
    · exact ⟨p, List.mem_cons_self, p.column_mem_written, hnew⟩
  refine ⟨t', hch, ?_, hX.advance (fun n hn => hkeep n fun he => hn ?_) hcol ?_⟩
  · rcases hcase with ⟨rfl, -⟩ | hnew
    · exact hp
    · exact hp.write hmem p.column_mem_written hkeep hnew
  · rw [he]
    exact p.column_mem_written
  · intro n hn hne
    rw [hwritten, List.mem_singleton] at hn
    exact absurd hn hne

theorem moves_remove {before rest : List PlannedEdit} {c : String}
    (hplan : g.plan = before ++ .remove c :: rest) :
    g.Moves pg (Partway g.schema (.remove c :: rest) (planColumns g.schema g.start before))
      (.dropColumn c)
      (Partway g.schema rest
        (PlannedEdit.apply g.schema (planColumns g.schema g.start before) (.remove c))) := by
  intro db db' t ht hS hex hp hX
  obtain ⟨t', hch, hk, hnone⟩ := executeStep_dropColumn ht hex
  have hkeep : ∀ n, n ≠ c → t'.columnMap n = t.columnMap n :=
    fun n hn => hk.columns n (by simpa using hn)
  have hw : c ∈ (PlannedEdit.remove c).written := List.mem_singleton.mpr rfl
  refine ⟨t', hch, hp.write (by rw [hplan]; simp) hw hkeep hnone, hX.advance ?_ ?_ ?_⟩
  · exact fun n hn => hkeep n fun he => hn (List.mem_singleton.mpr he)
  · exact ⟨_, List.mem_cons_self, hw, hnone⟩
  · exact fun n hn hne => absurd (List.mem_singleton.mp hn) hne

section Modify

variable {before rest : List PlannedEdit} {c : String} {dataType : FieldDataType} {required : Bool}
  {config : Option Json} {typed : dataType ≠ .RELATION}

theorem moves_addShadow
    (hplan : g.plan = before ++ .modify c dataType required config typed :: rest) :
    g.Moves pg
      (Partway g.schema (.modify c dataType required config typed :: rest)
        (planColumns g.schema g.start before))
      (.addShadowColumn (c ++ SHADOW_COLUMN_SUFFIX) dataType required config)
      (fun C => Partway g.schema (.modify c dataType required config typed :: rest)
        (planColumns g.schema g.start before) C ∧ (C (c ++ SHADOW_COLUMN_SUFFIX)).isSome) := by
  intro db db' t ht hS hex hp hX
  obtain ⟨t', hch, hk, ⟨rfl, hsome⟩ | ⟨type, hty, -, hnew⟩⟩ := executeStep_addShadowColumn ht hex
  · exact ⟨t', hch, hp, hX, hsome⟩
  · have hkeep : ∀ n, n ≠ c ++ SHADOW_COLUMN_SUFFIX → t'.columnMap n = t.columnMap n :=
      fun n hn => hk.columns n (by simpa using hn)
    have hw : c ++ SHADOW_COLUMN_SUFFIX ∈
        (PlannedEdit.modify c dataType required config typed).written := by
      simp [PlannedEdit.written]
    have hdef : t'.columnMap (c ++ SHADOW_COLUMN_SUFFIX) =
        (PlannedEdit.modify c dataType required config typed).defines g.schema := by
      rw [PlannedEdit.defines, typedDef_of_ok hty]
      exact hnew
    refine ⟨t', hch, hp.write (by rw [hplan]; simp) hw hkeep hdef,
      hX.write List.mem_cons_self hw hkeep hdef, ?_⟩
    rw [PhysTable.columnMap, hnew]
    rfl

theorem moves_backfill {s : String} :
    g.Moves pg X (.backfillColumn c s) X := by
  intro db db' t ht hS hex hp hX
  obtain ⟨t', hch, -, hcols, -, -⟩ := executeStep_backfillColumn ht hex
  have he : t'.columnMap = t.columnMap := by
    funext n
    rw [PhysTable.columnMap, PhysTable.columnMap, hcols]
  exact ⟨t', hch, by rw [he]; exact hp, by rw [he]; exact hX⟩

theorem moves_cutover
    (hplan : g.plan = before ++ .modify c dataType required config typed :: rest)
    (hfits : PlanFits g.schema g.start g.plan) (ha : ShadowsApart g.plan) :
    g.Moves pg
      (fun C => Partway g.schema (.modify c dataType required config typed :: rest)
        (planColumns g.schema g.start before) C ∧ (C (c ++ SHADOW_COLUMN_SUFFIX)).isSome)
      (.cutoverColumn c (c ++ SHADOW_COLUMN_SUFFIX) c)
      (Partway g.schema rest (PlannedEdit.apply g.schema (planColumns g.schema g.start before)
        (.modify c dataType required config typed))) := by
  rintro db db' t ht hS hex hp ⟨hX, hsome⟩
  obtain ⟨t', hch, hk, hmove⟩ := executeStep_cutoverColumn ht hex
  have hne := ne_shadow c
  obtain ⟨d, hd⟩ := Option.isSome_iff_exists.mp hsome
  obtain ⟨hcol, hgone⟩ := hmove (Ne.symm hne) (Ne.symm hne) d hd
  have hmem : .modify c dataType required config typed ∈ g.plan := by
    rw [hplan]
    simp
  rw [hplan] at hfits
  obtain ⟨-, -, hnone⟩ := hfits.at
  -- no edit is about the shadow name, so it was free at the start already
  have hstart : g.start (c ++ SHADOW_COLUMN_SUFFIX) = none := by
    rw [← hnone]
    refine (planColumns_of_not_column (fun p hp => ?_) g.start).symm
    exact ha c dataType required config typed hmem p (by rw [hplan]; simp [hp])
  have hkeep : ∀ n, n ≠ c → n ≠ c ++ SHADOW_COLUMN_SUFFIX → t'.columnMap n = t.columnMap n :=
    fun n hn hs => hk.columns n (by simp [hn, hs])
  refine ⟨t', hch, fun n => ?_, hX.advance ?_ ?_ ?_⟩
  · by_cases hn : n = c
    · subst hn
      rcases hp (n ++ SHADOW_COLUMN_SUFFIX) with h | ⟨q, hq, hw, h⟩
      · rw [hstart, hd] at h
        cases h
      · exact .inr ⟨q, hq, written_shadow ha hmem hq hw, (hcol.trans hd.symm).trans h⟩
    · by_cases hs : n = c ++ SHADOW_COLUMN_SUFFIX
      · subst hs
        exact .inl (hgone.trans hstart.symm)
      · rw [hkeep n hn hs]
        exact hp n
  · intro n hn
    simp only [PlannedEdit.written, List.mem_cons, List.not_mem_nil, or_false, not_or] at hn
    exact hkeep n hn.1 hn.2
  · rcases hX (c ++ SHADOW_COLUMN_SUFFIX) with h | ⟨q, hq, hw, h⟩
    · rw [hnone, hd] at h
      cases h
    · have hqplan : q ∈ g.plan := by
        rw [hplan]
        exact List.mem_append_right before hq
      exact ⟨q, hq, written_shadow ha hmem hqplan hw, (hcol.trans hd.symm).trans h⟩
  · intro n hn hne'
    simp only [PlannedEdit.written, List.mem_cons, List.not_mem_nil, or_false] at hn
    rcases hn with rfl | rfl
    · exact absurd rfl hne'
    · exact hgone.trans hnone.symm

end Modify

variable {d : FieldEditJobData}

theorem edit_held {before rest : List PlannedEdit} {p : PlannedEdit} (hname : d.tableName = g.name)
    (hplan : g.plan = before ++ p :: rest) (hfits : PlanFits g.schema g.start g.plan)
    (ha : ShadowsApart g.plan) :
    TxProg.Triple
      (fun st => g.Held (Partway g.schema (p :: rest) (planColumns g.schema g.start before))
        st.store st.committed)
      (p.steps.forM (runStep pg d))
      (fun _ st => g.Held (Partway g.schema rest
        (p.apply g.schema (planColumns g.schema g.start before))) st.store st.committed)
      fun st => g.Held (fun _ => True) st.store st.committed := by
  have hfit := hfits
  rw [hplan] at hfit
  have hp := hfit.at
  cases p with
  | add c dataType required config typed =>
    refine .bind (runStep_held hname (moves_add hplan rfl hp ?_)) fun _ => .pure fun _ h => h
    intro db db' t ht hS hex
    obtain ⟨t', hch, hk, h | ⟨type, hty, -, hnew⟩⟩ := executeStep_addColumn ht hex
    · exact ⟨t', hch, hk, .inl h⟩
    · exact ⟨t', hch, hk, .inr (hnew.trans (typedDef_of_ok hty required).symm)⟩
  | addRelation c target required config =>
    refine .bind (runStep_held hname (moves_add hplan rfl hp ?_)) fun _ => .pure fun _ h => h
    intro db db' t ht hS hex
    obtain ⟨t', hch, hk, h | ⟨-, hnew⟩⟩ := executeStep_addRelationColumn ht hex
    · exact ⟨t', hch, hk, .inl h⟩
    · refine ⟨t', hch, hk, .inr ?_⟩
      rw [← hS]
      exact hnew
  | remove c =>
    exact .bind (runStep_held hname (moves_remove hplan)) fun _ => .pure fun _ h => h
  | modify c dataType required config typed =>
    refine .bind (runStep_held hname (moves_addShadow hplan)) fun _ => ?_
    refine .bind (runStep_held hname moves_backfill) fun _ => ?_
    exact .bind (runStep_held hname (moves_cutover hplan hfits ha)) fun _ => .pure fun _ h => h

theorem forM_flatMap {α β D : Type} (xs : List α) (f : α → List β) (k : β → TxProg D PUnit) :
    (xs.flatMap f).forM k = xs.forM fun x => (f x).forM k := by
  induction xs with
  | nil => rfl
  | cons x xs ih =>
    rw [List.flatMap_cons, List.forM_eq_forM, List.forM_append]
    exact congrArg _ (funext fun _ => ih)

/-- The state a complete attempt commits its metadata effects in. -/
structure Finished (g : EditGhost) (db : TenantSchema) : Prop where
  metaTables : db.metaTables = g.metaTables
  metaFields : db.metaFields = g.metaFields
  schema : db.schema = g.schema
  columns : ∃ t, db.tables.lookup g.name = some t ∧
    t.columnMap = planColumns g.schema g.start g.plan

/-- An attempt that starts anywhere partway through the plan either stops partway
again or passes through to the end of the plan and commits the effects. -/
theorem processFieldEdit_held (hname : d.tableName = g.name)
    (hsteps : d.steps = g.plan.flatMap PlannedEdit.steps)
    (hfits : PlanFits g.schema g.start g.plan) (ha : ShadowsApart g.plan) :
    TxProg.Triple (fun st => g.Held (fun _ => True) st.store st.committed) (processFieldEdit pg d)
      (fun _ st => ∃ db, Finished g db ∧
        d.metadataEffects.foldlM (applyEffect d.tableId) db = .ok st.store)
      fun st => g.Held (fun _ => True) st.store st.committed := by
  let I : List PlannedEdit → TxState TenantSchema → Prop := fun done st =>
    g.Held (Partway g.schema (g.plan.drop done.length) (planColumns g.schema g.start done))
      st.store st.committed
  refine .bind (Q := fun _ st => I g.plan st) ?_ fun _ => ?_
  · rw [hsteps, forM_flatMap]
    have hloop : TxProg.Triple (I []) (g.plan.forM fun p => p.steps.forM (runStep pg d))
        (fun _ => I g.plan) fun st => g.Held (fun _ => True) st.store st.committed := by
      refine .forM fun before p rest hsplit => ?_
      have hdrop : g.plan.drop before.length = p :: rest := by
        rw [hsplit, List.drop_left]
      have hdrop' : g.plan.drop (before ++ [p]).length = rest := by
        have hsplit' : g.plan = (before ++ [p]) ++ rest := by simp [hsplit]
        rw [hsplit', List.drop_left]
      have hcols : planColumns g.schema g.start (before ++ [p]) =
          p.apply g.schema (planColumns g.schema g.start before) := planColumns_append _ _ _
      dsimp only [I]
      rw [hdrop, hdrop', hcols]
      exact edit_held hname hsplit hfits ha
    refine hloop.conseq (fun st h => ?_) (fun _ _ h => h) fun _ h => h
    obtain ⟨t, ht, hM, hF, hS, hp, hc, -⟩ := h
    exact ⟨t, ht, hM, hF, hS, hp, hc, hp⟩
  · refine .transaction (fun st db fs h heff => ?_) fun st fs h => h.weaken
    obtain ⟨t, ht, hM, hF, hS, -, -, hX⟩ := h
    rw [List.drop_length] at hX
    exact ⟨st.store, ⟨hM, hF, hS, t, ht, hX.nil⟩, heff⟩

end Attempt

end Flexi.DynamicTables
