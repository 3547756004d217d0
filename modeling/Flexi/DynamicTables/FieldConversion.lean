import Flexi.DynamicTables.EditRetry
import Flexi.DynamicTables.FieldRows
import Flexi.Tenants.Seed

/-!
# Converting a field in place

A `modify` edit builds its column under the derived name `<field>__shadow`, fills it from
the field and moves it into the field's place. A column that has this name already passes
for one of the job's own.
-/

namespace Flexi.DynamicTables
open Flexi.Library Flexi.Tenancy Flexi.Tenants

/-! ### Values -/

theorem forall₂_compose {α β γ : Type} {R : α → β → Prop} {S : β → γ → Prop} {T : α → γ → Prop}
    (h : ∀ a b c, R a b → S b c → T a c) {as : List α} {bs : List β} {cs : List γ}
    (hR : List.Forall₂ R as bs) (hS : List.Forall₂ S bs cs) : List.Forall₂ T as cs := by
  induction hR generalizing cs with
  | nil =>
    cases hS
    exact .nil
  | cons hab _ ih =>
    cases hS with
    | cons hbc hrest => exact .cons (h _ _ _ hab hbc) (ih hrest)

section Values

variable {pg : Postgres} {db db' : TenantSchema} {name : String} {t : PhysTable}

theorem mapM_update_values {f : Row → Option Cell} {column : String} {rows rows' : List Row}
    (h : (rows.mapM fun r => (f r).map fun v => Function.update r column v) = some rows') :
    List.Forall₂ (fun r r' : Row => f r = some (r' column)) rows rows' := by
  induction rows generalizing rows' with
  | nil =>
    cases h
    exact .nil
  | cons r rows ih =>
    rw [List.mapM_cons] at h
    obtain ⟨r', hr, h⟩ := Option.bind_eq_some_iff.mp h
    obtain ⟨rest, hrest, h⟩ := Option.bind_eq_some_iff.mp h
    cases h
    obtain ⟨v, hv, rfl⟩ := Option.map_eq_some_iff.mp hr
    exact .cons (by rw [hv, Function.update_self]) (ih hrest)

theorem forall_values_iff {f : Row → Option Cell} {column : String} {rows rows' : List Row}
    {P : Cell → Prop} (h : List.Forall₂ (fun r r' : Row => f r = some (r' column)) rows rows') :
    (∀ r ∈ rows, ∃ v, f r = some v ∧ P v) ↔ ∀ r' ∈ rows', P (r' column) := by
  induction h with
  | nil => simp
  | cons hr _ ih =>
    rw [List.forall_mem_cons, List.forall_mem_cons, ih, hr]
    refine and_congr_left fun _ => ?_
    constructor
    · rintro ⟨v, hv, hP⟩
      cases hv
      exact hP
    · exact fun hP => ⟨_, rfl, hP⟩

theorem exists_mapM_update {f : Row → Option Cell} {column : String} {rows : List Row}
    (h : ∀ r ∈ rows, (f r).isSome = true) :
    ∃ rows', (rows.mapM fun r => (f r).map fun v => Function.update r column v) = some rows' := by
  induction rows with
  | nil => exact ⟨[], rfl⟩
  | cons r rows ih =>
    obtain ⟨v, hv⟩ := Option.isSome_iff_exists.mp (h r List.mem_cons_self)
    obtain ⟨rest, hrest⟩ := ih fun r hr => h r (List.mem_cons_of_mem _ hr)
    exact ⟨Function.update r column v :: rest, by rw [List.mapM_cons, hv, hrest]; rfl⟩

/-- A value that the constraints of a column let in. -/
structure TenantSchema.Allows (db : TenantSchema) (d : ColumnDef) (v : Cell) : Prop where
  notNull : d.nullable = false → v.isNull = false
  key : ∀ target, d.references = some target → db.resolves target v = true

theorem allows_iff {d : ColumnDef} {column : String} {rows : List Row} :
    (∀ r ∈ rows, db.Allows d (r column)) ↔
      (!d.nullable && rows.any fun r => (r column).isNull) = false ∧
        (d.references.any fun target => rows.any fun r => !db.resolves target (r column)) = false := by
  simp only [Bool.and_eq_false_iff, Bool.not_eq_false', List.any_eq_false, Option.any_eq_false,
    Bool.not_eq_true, Bool.not_eq_true']
  constructor
  · intro h
    refine ⟨?_, fun target htarget r hr => by simp [(h r hr).key target htarget]⟩
    cases hnull : d.nullable with
    | true => exact .inl rfl
    | false => exact .inr fun r hr => (h r hr).notNull hnull
  · rintro ⟨hnull, hkey⟩ r hr
    refine ⟨fun hnot => ?_, fun target htarget => ?_⟩
    · rcases hnull with hnull | hnull
      · rw [hnot] at hnull
        cases hnull
      · exact hnull r hr
    · simpa using hkey target htarget r hr

/-- `UPDATE` goes through when each value has its cast and the column lets that in. -/
structure Copies (pg : Postgres) (db : TenantSchema) (source target : ColumnDef) (c : String)
    (rows : List Row) : Prop where
  cast : pg.hasAssignmentCast source.type target.type = true
  values : ∀ r ∈ rows, ∃ v, pg.assignCast source.type target.type (r c) = some v ∧
    db.Allows target v

theorem copyColumn_eq_ok {c s : String} {S D : ColumnDef} (ht : db.tables.lookup name = some t)
    (hS : t.columns.lookup c = some S) (hD : t.columns.lookup s = some D)
    (h : Copies pg db S D c t.rows) :
    ∃ rows, db.copyColumn pg name c s = .ok (db.setTable name { t with rows := rows }) ∧
      List.Forall₂ (fun r r' : Row =>
          pg.assignCast S.type D.type (r c) = some (r' s)) t.rows rows := by
  have hcast (r : Row) (hr : r ∈ t.rows) : (pg.assignCast S.type D.type (r c)).isSome = true := by
    obtain ⟨v, hv, -⟩ := h.values r hr
    rw [hv]
    rfl
  obtain ⟨rows, hrows⟩ := @exists_mapM_update _ s _ hcast
  have hvalues := mapM_update_values hrows
  obtain ⟨hnull, hkey⟩ := allows_iff.mp ((forall_values_iff hvalues).mp h.values)
  refine ⟨rows, ?_, hvalues⟩
  rw [TenantSchema.copyColumn, ht]
  simp only [hS, hD, h.cast, Bool.not_true, Bool.false_eq_true, if_false, hrows, hnull, hkey]

theorem copyColumn_values {c s : String} (ht : db.tables.lookup name = some t)
    (h : db.copyColumn pg name c s = .ok db') :
    ∃ t' S D, TableChange name t t' db db' ∧ KeepsOutside [s] t t' ∧ t'.columns = t.columns ∧
      t.columns.lookup c = some S ∧ t.columns.lookup s = some D ∧ Copies pg db S D c t.rows ∧
      List.Forall₂ (fun r r' : Row =>
          pg.assignCast S.type D.type (r c) = some (r' s)) t.rows t'.rows := by
  obtain ⟨t₀, t', hch, hk, hcols, hc, hs⟩ := copyColumn_ok h
  have he : t₀ = t := Option.some.inj (hch.before.symm.trans ht)
  subst he
  obtain ⟨S, hS⟩ := Option.isSome_iff_exists.mp hc
  obtain ⟨D, hD⟩ := Option.isSome_iff_exists.mp hs
  rw [TenantSchema.copyColumn, ht] at h
  simp only [hS, hD] at h
  split at h
  · cases h
  rename_i hcast
  split at h
  · cases h
  rename_i rows hrows
  split at h
  · cases h
  rename_i hnull
  split at h
  · cases h
  rename_i hkey
  have hafter : t' = { t₀ with rows := rows } := by
    have hafter := hch.after
    cases h
    rw [TenantSchema.setTable_lookup] at hafter
    exact (Option.some.inj hafter).symm
  have hvalues := mapM_update_values hrows
  have hallowed : ∀ r ∈ rows, db.Allows D (r s) :=
    allows_iff.mpr ⟨Bool.eq_false_of_not_eq_true hnull, Bool.eq_false_of_not_eq_true hkey⟩
  refine ⟨t', S, D, hch, hk, hcols, hS, hD,
    ⟨by simpa using hcast, (forall_values_iff hvalues).mpr hallowed⟩, ?_⟩
  rw [hafter]
  exact hvalues

theorem renameColumn_values {old new : String} (ht : db.tables.lookup name = some t)
    (h : db.renameColumn name old new = .ok db') :
    ∃ t' d, TableChange name t t' db db' ∧ KeepsOutside [old, new] t t' ∧
      t.columns.lookup old = some d ∧ t'.columns.lookup new = some d ∧
      (old ≠ new → t'.columns.lookup old = none) ∧
      List.Forall₂ (fun r r' : Row => r' new = r old) t.rows t'.rows := by
  obtain ⟨t₀, t', d, hch, hk, hold, hnew, hgone⟩ := renameColumn_ok h
  have he : t₀ = t := Option.some.inj (hch.before.symm.trans ht)
  subst he
  refine ⟨t', d, hch, hk, hold, hnew, hgone, ?_⟩
  rw [TenantSchema.renameColumn, ht] at h
  simp only [hold] at h
  split at h
  · cases h
  have hafter := hch.after
  cases h
  rw [TenantSchema.setTable_lookup] at hafter
  rw [← Option.some.inj hafter]
  show List.Forall₂ _ t₀.rows (t₀.rows.map _)
  rw [List.forall₂_map_right_iff, List.forall₂_same]
  intro r _
  exact Function.update_self _ _ _

theorem cutover_values {c s : String} {D : ColumnDef} (hne : c ≠ s)
    (ht : db.tables.lookup name = some t) (hD : t.columns.lookup s = some D)
    (h : executeStep pg name (.cutoverColumn c s c) db = .ok db') :
    ∃ t', TableChange name t t' db db' ∧ KeepsOutside [c, s] t t' ∧
      t'.columns.lookup c = some D ∧ t'.columns.lookup s = none ∧
      List.Forall₂ (fun r r' : Row => r' c = r s) t.rows t'.rows ∧
      ((t.columns.lookup c).isSome = true → ¬(c = "id" ∧ db.referenced name = true)) := by
  simp only [executeStep, hasColumn_of_lookup ht, hD, Option.isSome_some, Bool.not_true,
    Bool.and_false, Bool.false_eq_true, if_false, if_true] at h
  obtain ⟨db₁, t₁, hch, hk, hdrop, h⟩ : ∃ db₁ t₁, TableChange name t t₁ db db₁ ∧
      KeepsOutside [c] t t₁ ∧
      ((t.columns.lookup c).isSome = true → ¬(c = "id" ∧ db.referenced name = true)) ∧
      db₁.renameColumn name s c = .ok db' := by
    split at h
    · cases hd : db.dropColumn name c with
      | error e => simp [hd, bind, Except.bind] at h
      | ok db₁ =>
        obtain ⟨t₀, t₁, hch, hk, -⟩ := dropColumn_ok hd
        have he : t₀ = t := Option.some.inj (hch.before.symm.trans ht)
        subst he
        rw [hd] at h
        refine ⟨db₁, t₁, hch, hk, fun hsome => ?_, h⟩
        rintro ⟨rfl, href⟩
        rw [TenantSchema.dropColumn, ht] at hd
        simp only [href] at hd
        obtain ⟨d, hd'⟩ := Option.isSome_iff_exists.mp hsome
        simp [hd'] at hd
    · rename_i hno
      exact ⟨db, t, .refl ht, .refl t, fun hsome => absurd hsome hno, h⟩
  obtain ⟨t', d, hch', hk', hold, hnew, hgone, hvalues⟩ := renameColumn_values hch.after h
  have hs : t₁.columns.lookup s = t.columns.lookup s := hk.columns s (by simpa using Ne.symm hne)
  rw [hs, hD] at hold
  cases hold
  have hkeep : KeepsOutside [c, s] t t' := by
    refine (hk.mono fun n hn => ?_).trans (hk'.mono fun n hn => ?_)
    · simp only [List.mem_singleton] at hn
      simp [hn]
    · simp only [List.mem_cons, List.not_mem_nil, or_false] at hn ⊢
      tauto
  refine ⟨t', hch.trans hch', hkeep, hnew, hgone (Ne.symm hne), ?_, hdrop⟩
  refine forall₂_compose (fun a b e hab hbe => ?_) hk.rows hvalues
  exact hbe.trans (hab s (by simpa using Ne.symm hne))

end Values

/-! ### Attempts of one conversion -/

/-- The columns of the table called `name` satisfy `X`. -/
def OnTable (name : String) (X : TenantSchema → PhysTable → Prop) : Assertion :=
  fun db _ => ∃ t, db.tables.lookup name = some t ∧ X db t

/-- A step from `X` to `X'`, both of which say `G`. -/
theorem runStep_onTable {pg : Postgres} {d : FieldEditJobData} {s : FieldEditStep}
    {X X' G : TenantSchema → PhysTable → Prop} (hX : (OnTable d.tableName X).Stable)
    (hX' : (OnTable d.tableName X').Stable)
    (hstep : ∀ db db' t, db.tables.lookup d.tableName = some t → X db t →
      executeStep pg d.tableName s db = .ok db' → ∃ t', db'.tables.lookup d.tableName = some t' ∧
          X' db' t')
    (hG : ∀ db t, X db t → G db t) (hG' : ∀ db t, X' db t → G db t) :
    TxProg.Triple (fun st => OnTable d.tableName X st.store st.committed) (runStep pg d s)
      (fun _ st => OnTable d.tableName X' st.store st.committed)
      fun st => OnTable d.tableName G st.store st.committed := by
  refine (recorded_rule hX hX' ?_).conseq (fun _ h => h) (fun _ _ h => h) fun st h => ?_
  · rintro db db' n ⟨t, ht, hXt⟩ hs
    exact hstep db db' t ht hXt hs
  · rcases h with ⟨t, ht, hXt⟩ | ⟨t, ht, hXt⟩
    · exact ⟨t, ht, hG _ t hXt⟩
    · exact ⟨t, ht, hG' _ t hXt⟩

/-- The steps and the effect of a `modify` edit of `x`. -/
structure Modifies (d : FieldEditJobData) (x : String) (dataType : FieldDataType) : Prop where
  steps : ∃ required config, d.steps =
    [.addShadowColumn (x ++ SHADOW_COLUMN_SUFFIX) dataType required config,
      .backfillColumn x (x ++ SHADOW_COLUMN_SUFFIX),
      .cutoverColumn x (x ++ SHADOW_COLUMN_SUFFIX) x]
  effects : ∃ required config, d.metadataEffects = [.upsertField x x dataType required config none]
  typed : ∃ type, addTypedColumn dataType = .ok type

theorem modifies_of_accepted {cfg : Config} {db : TenantSchema} {pending : List DdlJobData}
    {jobId tableId : Uuid} {dto : UpdateFieldDto} {d : FieldEditJobData} {edit : FieldEditDto}
    {dataType : FieldDataType} (h : enqueueFieldEdit cfg db pending jobId tableId dto = .ok d)
    (hdto : dto.edits = [edit]) (hop : edit.operation = .modify)
    (htype : edit.dataType = some dataType) :
    Modifies d edit.name dataType := by
  obtain ⟨built, hbuilt, hsteps, heffects⟩ := (enqueueFieldEdit_ok h).built
  rw [hdto] at hbuilt
  cases hbuilt with
  | cons hb hrest =>
    cases hrest
    rename_i b
    unfold buildFieldEditSteps at hb
    obtain ⟨column, hname, hb⟩ := except_bind_ok.mp hb
    have hcol := sanitizeUserIdentifier_ok hname
    subst hcol
    simp only [hop, htype] at hb
    split at hb
    · cases hb
    · cases hb
    · rename_i T hne heq
      cases heq
      split at hb
      · cases hb
      · obtain ⟨shadow, hshadow, hb⟩ := except_bind_ok.mp hb
        have hs := buildShadowColumnName_ok hshadow
        subst hs
        cases hb
        have hrelation : dataType ≠ .RELATION := hne
        obtain ⟨type, htyped, -⟩ := typedDef_ok hrelation false
        exact ⟨⟨_, _, hsteps⟩, ⟨_, _, heffects⟩, type, htyped⟩

/-- After a failed attempt the job waits for another one. -/
inductive Retried (env : Env) (job : Job) (db : TenantSchema) : Job → TenantSchema → Prop
  | start : Retried env job db job db
  | failed {job' : Job} {db' : TenantSchema} (faults : List (Option String)) :
      Retried env job db job' db' → (job'.run env faults db').1.state = .delayed →
        Retried env job db (job'.run env faults db').1 (job'.run env faults db').2

/-- From `before`, the table at the start of an attempt, to `after`: `x` has the type, each
value of it is the cast of the one before, and the other declared columns are those of
`start`. -/
structure Converted (pg : Postgres) (declared : List String) (x : String) (type : PgType)
    (start before after : PhysTable) : Prop where
  column : ∃ D, after.columns.lookup x = some D ∧ D.type = type
  values : ∃ S, before.columns.lookup x = some S ∧
    List.Forall₂ (fun r r' : Row =>
        pg.assignCast S.type type (r x) = some (r' x)) before.rows after.rows
  others : ∀ c ∈ declared, c ≠ x → after.columns.lookup c = start.columns.lookup c ∧
    ((start.columns.lookup c).isSome = true →
      List.Forall₂ (fun r r' : Row => r' c = r c) start.rows after.rows)

/-- Whenever the job completes, after whichever failed attempts, `x` and nothing else is
converted. -/
def ModifyIsolated (env : Env) (job : Job) (d : FieldEditJobData) (x : String) (type : PgType)
    (db : TenantSchema) (start : PhysTable) : Prop :=
  ∀ job' db' faults, Retried env job db job' db' → (job'.run env faults db').1.state = .completed →
    ∃ before after, db'.tables.lookup d.tableName = some before ∧
      (job'.run env faults db').2.tables.lookup d.tableName = some after ∧
      Converted env.pg (db.fieldSlugs d.tableId) x type start before after

/-- The values of `x` can go into a column of the shape `D`, past its NOT NULL and its foreign
key, and `x` can be dropped. -/
structure Convertible (pg : Postgres) (db : TenantSchema) (name : String) (start : PhysTable)
    (x : String) (D : ColumnDef) : Prop where
  source : ∃ S, start.columns.lookup x = some S ∧ Copies pg db S D x start.rows
  droppable : ¬(x = "id" ∧ db.referenced name = true)

/-- A column that has the shadow's name is no declared field and has the new type, or it
stops the job. -/
def ShadowReady (pg : Postgres) (db : TenantSchema) (d : FieldEditJobData) (x : String)
    (type : PgType) (start : PhysTable) : Prop :=
  ∀ D, start.columns.lookup (x ++ SHADOW_COLUMN_SUFFIX) = some D →
    (x ++ SHADOW_COLUMN_SUFFIX ∉ db.fieldSlugs d.tableId ∧ D.type = type) ∨
      ¬Convertible pg db d.tableName start x D

section Conversion

variable {pg : Postgres} {db : TenantSchema} {d : FieldEditJobData} {x : String}
  {dataType : FieldDataType} {type : PgType} {start before : PhysTable}

/-- `t` differs from `start` in `x` and its shadow only, and a shadow has the new type. -/
structure Underway (x : String) (type : PgType) (start t : PhysTable) : Prop where
  keeps : KeepsOutside [x, x ++ SHADOW_COLUMN_SUFFIX] start t
  shadow : ∀ D, t.columns.lookup (x ++ SHADOW_COLUMN_SUFFIX) = some D → D.type = type

/-- The table after the step that makes the shadow. -/
structure Shadowed (x : String) (type : PgType) (before t : PhysTable) : Prop where
  keeps : KeepsOutside [x ++ SHADOW_COLUMN_SUFFIX] before t
  shadow : ∃ D, t.columns.lookup (x ++ SHADOW_COLUMN_SUFFIX) = some D ∧ D.type = type

/-- The shadow holds the cast values. -/
structure Backfilled (pg : Postgres) (x : String) (type : PgType) (before t : PhysTable) : Prop
    extends Shadowed x type before t where
  values : ∃ S, before.columns.lookup x = some S ∧
    List.Forall₂ (fun r r' : Row => pg.assignCast S.type type (r x) =
      some (r' (x ++ SHADOW_COLUMN_SUFFIX))) before.rows t.rows

/-- The shadow has taken the place of `x`. -/
structure CutOver (pg : Postgres) (x : String) (type : PgType) (before t : PhysTable) : Prop where
  keeps : KeepsOutside [x, x ++ SHADOW_COLUMN_SUFFIX] before t
  column : ∃ D, t.columns.lookup x = some D ∧ D.type = type
  gone : t.columns.lookup (x ++ SHADOW_COLUMN_SUFFIX) = none
  values : ∃ S, before.columns.lookup x = some S ∧
    List.Forall₂ (fun r r' : Row =>
        pg.assignCast S.type type (r x) = some (r' x)) before.rows t.rows

theorem Shadowed.underway {t : PhysTable} (hu : Underway x type start before)
    (h : Shadowed x type before t) :
    Underway x type start t := by
  have hkeep : KeepsOutside [x, x ++ SHADOW_COLUMN_SUFFIX] before t :=
    h.keeps.mono fun c hc => by simp_all
  refine ⟨hu.keeps.trans hkeep, fun D hD => ?_⟩
  obtain ⟨D', hD', htype⟩ := h.shadow
  rw [hD'] at hD
  cases hD
  exact htype

theorem CutOver.underway {t : PhysTable} (hu : Underway x type start before)
    (h : CutOver pg x type before t) :
    Underway x type start t := by
  refine ⟨hu.keeps.trans h.keeps, fun D hD => ?_⟩
  rw [h.gone] at hD
  cases hD

theorem addShadow_shadowed (htyped : addTypedColumn dataType = .ok type)
    (hu : Underway x type start before)
    {required : Bool} {config : Option Json} {db' : TenantSchema}
    (ht : db.tables.lookup d.tableName = some before)
    (h : executeStep pg d.tableName
      (.addShadowColumn (x ++ SHADOW_COLUMN_SUFFIX) dataType required config) db = .ok db') :
    ∃ t, db'.tables.lookup d.tableName = some t ∧ Shadowed x type before t := by
  obtain ⟨t, hch, hk, ⟨rfl, hsome⟩ | ⟨type', htyped', -, hnew⟩⟩ := executeStep_addShadowColumn ht h
  · obtain ⟨D, hD⟩ := Option.isSome_iff_exists.mp hsome
    exact ⟨t, hch.after, hk, D, hD, hu.shadow D hD⟩
  · have heq : type' = type := Except.ok.inj (htyped'.symm.trans htyped)
    exact ⟨t, hch.after, hk, _, hnew, heq⟩

theorem backfill_backfilled {t : PhysTable} (hs : Shadowed x type before t) {db' : TenantSchema}
    (ht : db.tables.lookup d.tableName = some t)
    (h : executeStep pg d.tableName (.backfillColumn x (x ++ SHADOW_COLUMN_SUFFIX)) db = .ok db') :
    ∃ t', db'.tables.lookup d.tableName = some t' ∧ Backfilled pg x type before t' := by
  obtain ⟨t', S, D, hch, hk, hcols, hS, hD, -, hvalues⟩ := copyColumn_values ht h
  obtain ⟨D', hD', htype⟩ := hs.shadow
  have hne := ne_shadow x
  have heq : D = D' := Option.some.inj (hD.symm.trans hD')
  have hx : before.columns.lookup x = some S :=
    (hs.keeps.columns x (by simpa using hne)).symm.trans hS
  refine ⟨t', hch.after, ⟨hs.keeps.trans hk, D, ?_, heq ▸ htype⟩, S, hx, ?_⟩
  · rw [hcols]
    exact hD
  · refine forall₂_compose (fun r r' r'' hr hr' => ?_) hs.keeps.rows hvalues
    rw [heq, htype, hr x (by simpa using hne)] at hr'
    exact hr'

theorem cutover_cutOver {t : PhysTable} (hb : Backfilled pg x type before t) {db' : TenantSchema}
    (ht : db.tables.lookup d.tableName = some t)
    (h : executeStep pg d.tableName (.cutoverColumn x (x ++ SHADOW_COLUMN_SUFFIX) x) db = .ok db') :
    ∃ t', db'.tables.lookup d.tableName = some t' ∧ CutOver pg x type before t' := by
  obtain ⟨D, hD, htype⟩ := hb.shadow
  obtain ⟨t', hch, hk, hcol, hgone, hvalues, -⟩ := cutover_values (ne_shadow x) ht hD h
  obtain ⟨S, hS, hcast⟩ := hb.values
  have hkeep : KeepsOutside [x, x ++ SHADOW_COLUMN_SUFFIX] before t :=
    hb.keeps.mono fun c hc => by simp_all
  refine ⟨t', hch.after, hkeep.trans hk, ⟨D, hcol, htype⟩, hgone, S, hS, ?_⟩
  refine forall₂_compose (fun r r' r'' hr hr' => ?_) hcast hvalues
  rw [hr']
  exact hr

/-- An attempt that starts underway stops underway or converts the table it found. -/
theorem processFieldEdit_converts (hm : Modifies d x dataType)
    (htyped : addTypedColumn dataType = .ok type)
    (hu : Underway x type start before) :
    TxProg.Triple (fun st => st.store.tables.lookup d.tableName = some before)
        (processFieldEdit pg d)
      (fun _ st => ∃ t, st.store.tables.lookup d.tableName = some t ∧ CutOver pg x type before t)
      fun st => ∃ t, st.store.tables.lookup d.tableName = some t ∧ Underway x type start t := by
  obtain ⟨⟨required, config, hsteps⟩, -, -⟩ := hm
  have hstable (X : TenantSchema → PhysTable → Prop)
      (hX : ∀ db rows t, X db t → X { db with metaMigrations := rows } t) :
      (OnTable d.tableName X).Stable := fun db rows n ⟨t, ht, h⟩ => ⟨t, ht, hX db rows t h⟩
  let G : TenantSchema → PhysTable → Prop := fun _ t => Underway x type start t
  let X₀ : TenantSchema → PhysTable → Prop := fun _ t => t = before
  let X₁ : TenantSchema → PhysTable → Prop := fun _ t => Shadowed x type before t
  let X₂ : TenantSchema → PhysTable → Prop := fun _ t => Backfilled pg x type before t
  let X₃ : TenantSchema → PhysTable → Prop := fun _ t => CutOver pg x type before t
  have hX₀ : (OnTable d.tableName X₀).Stable := hstable X₀ fun _ _ _ h => h
  have hX₁ : (OnTable d.tableName X₁).Stable := hstable X₁ fun _ _ _ h => h
  have hX₂ : (OnTable d.tableName X₂).Stable := hstable X₂ fun _ _ _ h => h
  have hX₃ : (OnTable d.tableName X₃).Stable := hstable X₃ fun _ _ _ h => h
  have hG₀ : ∀ db t, X₀ db t → G db t := fun db t h => (congrArg _ h).mpr hu
  have hG₁ : ∀ db t, X₁ db t → G db t := fun _ _ h => h.underway hu
  have hG₂ : ∀ db t, X₂ db t → G db t := fun _ _ h => h.toShadowed.underway hu
  have hG₃ : ∀ db t, X₃ db t → G db t := fun _ _ h => h.underway hu
  refine .bind (Q := fun _ st => OnTable d.tableName X₃ st.store st.committed) ?_ fun _ => ?_
  · rw [hsteps]
    have hstart : TxProg.Triple (fun st => OnTable d.tableName X₀ st.store st.committed)
        ([FieldEditStep.addShadowColumn (x ++ SHADOW_COLUMN_SUFFIX) dataType required config,
          .backfillColumn x (x ++ SHADOW_COLUMN_SUFFIX),
          .cutoverColumn x (x ++ SHADOW_COLUMN_SUFFIX) x].forM (runStep pg d))
        (fun _ st => OnTable d.tableName X₃ st.store st.committed)
        fun st => OnTable d.tableName G st.store st.committed := by
      refine .bind (runStep_onTable hX₀ hX₁ ?_ hG₀ hG₁) fun _ => ?_
      · intro db db' t ht heq h
        have ht : db.tables.lookup d.tableName = some before := ht.trans (congrArg some heq)
        exact addShadow_shadowed htyped hu ht h
      refine .bind (runStep_onTable hX₁ hX₂ ?_ hG₁ hG₂) fun _ => ?_
      · intro db db' t ht hs h
        exact backfill_backfilled hs ht h
      refine .bind (runStep_onTable hX₂ hX₃ ?_ hG₂ hG₃) fun _ => .pure fun _ h => h
      intro db db' t ht hb h
      exact cutover_cutOver hb ht h
    exact hstart.conseq (fun st h => ⟨before, h, rfl⟩) (fun _ _ h => h) fun _ h => h
  · refine .transaction (fun st db fs h heff => ?_) fun st fs h => ?_
    · obtain ⟨t, ht, hcut⟩ := h
      refine ⟨t, ?_, hcut⟩
      rw [(Catalog.applyEffects_frame heff).1]
      exact ht
    · obtain ⟨t, ht, hcut⟩ := h
      exact ⟨t, ht, hcut.underway hu⟩

/-! ### A shadow that stops the job -/

theorem referenced_iff {name : String} : db.referenced name = true ↔
    ∃ n u c D, db.tables.lookup n = some u ∧ u.columns.lookup c = some D ∧
      D.references = some (db.schema ++ "." ++ name) := by
  rw [TenantSchema.referenced, List.any_eq_true]
  constructor
  · rintro ⟨⟨n, u⟩, hu, hany⟩
    obtain ⟨⟨c, D⟩, hD, href⟩ := List.any_eq_true.mp hany
    exact ⟨n, u, c, D, AList.mem_lookup_iff.mpr hu, AList.mem_lookup_iff.mpr hD, beq_iff_eq.mp href⟩
  · rintro ⟨n, u, c, D, hu, hD, href⟩
    exact ⟨⟨n, u⟩, AList.mem_lookup_iff.mp hu,
      List.any_eq_true.mpr ⟨⟨c, D⟩, AList.mem_lookup_iff.mp hD, beq_iff_eq.mpr href⟩⟩

theorem TableChange.lookup_columns {name n : String} {t t' u : PhysTable} {db' : TenantSchema}
    (h : TableChange name t t' db db') (hcols : t'.columns = t.columns)
    (hu : db.tables.lookup n = some u) :
    ∃ u', db'.tables.lookup n = some u' ∧ u'.columns = u.columns := by
  by_cases hn : n = name
  · subst hn
    have heq : t = u := Option.some.inj (h.before.symm.trans hu)
    exact ⟨t', h.after, heq ▸ hcols⟩
  · exact ⟨u, (h.others n hn).trans hu, rfl⟩

theorem TableChange.referenced {name n : String} {t t' : PhysTable} {db' : TenantSchema}
    (h : TableChange name t t' db db') (hcols : t'.columns = t.columns) :
    db'.referenced n = db.referenced n := by
  rw [Bool.eq_iff_iff, referenced_iff, referenced_iff]
  have hback : TableChange name t' t db' db :=
    ⟨h.after, h.before, fun m hm => (h.others m hm).symm, h.metaTables.symm, h.metaFields.symm,
      h.schema.symm⟩
  constructor
  · rintro ⟨m, u, c, D, hu, hD, href⟩
    obtain ⟨u', hu', heq⟩ := hback.lookup_columns hcols.symm hu
    exact ⟨m, u', c, D, hu', heq ▸ hD, by rw [href, h.schema]⟩
  · rintro ⟨m, u, c, D, hu, hD, href⟩
    obtain ⟨u', hu', heq⟩ := h.lookup_columns hcols hu
    exact ⟨m, u', c, D, hu', heq ▸ hD, by rw [href, h.schema]⟩

theorem resolves_iff {target : String} {v : Cell} : db.resolves target v = true ↔
    v.isNull = true ∨ ∃ n u, db.tables.lookup n = some u ∧ db.schema ++ "." ++ n = target ∧
      (u.rows.any fun r => (r "id").sameKey v) = true := by
  rw [TenantSchema.resolves, Bool.or_eq_true, List.any_eq_true]
  refine or_congr_right ⟨?_, ?_⟩
  · rintro ⟨⟨n, u⟩, hu, hany⟩
    obtain ⟨hname, hany⟩ := Bool.and_eq_true_iff.mp hany
    exact ⟨n, u, AList.mem_lookup_iff.mpr hu, beq_iff_eq.mp hname, hany⟩
  · rintro ⟨n, u, hu, hname, hany⟩
    exact ⟨⟨n, u⟩, AList.mem_lookup_iff.mp hu,
      Bool.and_eq_true_iff.mpr ⟨beq_iff_eq.mpr hname, hany⟩⟩

theorem any_congr_column {c : String} {rows rows' : List Row} (p : Cell → Bool)
    (h : List.Forall₂ (fun r r' : Row => r' c = r c) rows rows') :
    (rows'.any fun r => p (r c)) = rows.any fun r => p (r c) := by
  induction h with
  | nil => rfl
  | cons hr _ ih => rw [List.any_cons, List.any_cons, hr, ih]

theorem TableChange.resolves {name target : String} {v : Cell} {cs : List String} {t t' : PhysTable}
    {db' : TenantSchema} (h : TableChange name t t' db db') (hk : KeepsOutside cs t t')
    (hid : "id" ∉ cs) : db'.resolves target v = db.resolves target v := by
  have hany := any_congr_column (fun i => i.sameKey v) (hk.rows.imp fun _ _ hr => hr "id" hid)
  rw [Bool.eq_iff_iff, resolves_iff, resolves_iff, h.schema]
  refine or_congr_right (exists_congr fun n => ?_)
  by_cases hn : n = name
  · subst hn
    rw [h.before, h.after]
    simp only [Option.some.injEq, exists_eq_left', hany]
  · rw [h.others n hn]

/-- Nothing but the values of the shadow has changed. -/
structure Stuck (db₀ : TenantSchema) (name x : String) (start : PhysTable) (db : TenantSchema)
    (t : PhysTable) : Prop where
  columns : t.columns = start.columns
  values : List.Forall₂ (fun r r' : Row => r' x = r x) start.rows t.rows
  referenced : db.referenced name = db₀.referenced name
  resolves : ∀ target v, db.resolves target v = db₀.resolves target v

theorem id_ne_shadow (x : String) : "id" ∉ [x ++ SHADOW_COLUMN_SUFFIX] := by
  rw [List.mem_singleton]
  intro h
  have hlength := congrArg String.length h
  rw [String.length_append] at hlength
  have hsuffix : SHADOW_COLUMN_SUFFIX.length = 8 := rfl
  have hkey : "id".length = 2 := rfl
  omega

theorem Copies.transport {S D : ColumnDef} {c : String} {db₀ : TenantSchema} {rows rows' : List Row}
    (h : Copies pg db S D c rows') (hrows : List.Forall₂ (fun r r' : Row => r' c = r c) rows rows')
    (hresolves : ∀ target v, db.resolves target v = db₀.resolves target v) :
    Copies pg db₀ S D c rows := by
  refine ⟨h.cast, ?_⟩
  have hvalues := h.values
  clear h
  induction hrows with
  | nil => simp
  | cons hr _ ih =>
    intro r hmem
    rcases List.mem_cons.mp hmem with rfl | hmem
    · obtain ⟨v, hv, hallowed⟩ := hvalues _ List.mem_cons_self
      rw [hr] at hv
      exact ⟨v, hv, hallowed.notNull, fun target htarget =>
        (hresolves target v).symm.trans (hallowed.key target htarget)⟩
    · exact ih (fun r hr => hvalues r (List.mem_cons_of_mem _ hr)) r hmem

/-- No attempt completes on a column that `x` cannot be converted into. -/
theorem processFieldEdit_stuck {db₀ : TenantSchema} {D : ColumnDef} (hm : Modifies d x dataType)
    (hD : start.columns.lookup (x ++ SHADOW_COLUMN_SUFFIX) = some D)
    (hno : ¬Convertible pg db₀ d.tableName start x D) :
    TxProg.Triple (fun st => ∃ t, st.store.tables.lookup d.tableName = some t ∧
        Stuck db₀ d.tableName x start st.store t)
      (processFieldEdit pg d) (fun _ _ => False)
      fun st => ∃ t, st.store.tables.lookup d.tableName = some t ∧
        Stuck db₀ d.tableName x start st.store t := by
  obtain ⟨⟨required, config, hsteps⟩, -, -⟩ := hm
  have hne := ne_shadow x
  let G : TenantSchema → PhysTable → Prop := fun db t => Stuck db₀ d.tableName x start db t
  let X : TenantSchema → PhysTable → Prop := fun db t => Stuck db₀ d.tableName x start db t ∧
    ∃ S, start.columns.lookup x = some S ∧ Copies pg db₀ S D x start.rows
  let F : TenantSchema → PhysTable → Prop := fun _ _ => False
  have hG : (OnTable d.tableName G).Stable := fun db rows n ⟨t, ht, h⟩ =>
      ⟨t, ht, h.columns, h.values, h.referenced, h.resolves⟩
  have hX : (OnTable d.tableName X).Stable := fun db rows n ⟨t, ht, h, hcopies⟩ =>
    ⟨t, ht, ⟨h.columns, h.values, h.referenced, h.resolves⟩, hcopies⟩
  have hF : (OnTable d.tableName F).Stable := fun db rows n ⟨t, ht, h⟩ => ⟨t, ht, h⟩
  have hXG : ∀ db t, X db t → G db t := fun _ _ h => h.1
  have hFG : ∀ db t, F db t → G db t := fun _ _ h => h.elim
  refine .bind (Q := fun _ st => OnTable d.tableName F st.store st.committed) ?_ fun _ => ?_
  · rw [hsteps]
    refine .bind (runStep_onTable hG hG ?_ (fun _ _ h => h) fun _ _ h => h) fun _ => ?_
    · intro db db' t ht hs h
      obtain ⟨t', hch, hk, ⟨rfl, -⟩ | ⟨-, -, hnone, -⟩⟩ := executeStep_addShadowColumn ht h
      · exact ⟨t', hch.after, hs.columns, hs.values, (hch.referenced rfl).trans hs.referenced,
          fun target v => (hch.resolves hk (id_ne_shadow x)).trans (hs.resolves target v)⟩
      · rw [hs.columns, hD] at hnone
        cases hnone
    refine .bind (runStep_onTable hG hX ?_ (fun _ _ h => h) hXG) fun _ => ?_
    · intro db db' t ht hs h
      obtain ⟨t', S, D', hch, hk, hcols, hS, hD', hcopies, -⟩ := copyColumn_values ht h
      rw [hs.columns] at hS hD'
      have heq : D' = D := Option.some.inj (hD'.symm.trans hD)
      subst heq
      refine ⟨t', hch.after,
          ⟨hcols.trans hs.columns, ?_, (hch.referenced hcols).trans hs.referenced, fun target v =>
            (hch.resolves hk (id_ne_shadow x)).trans (hs.resolves target v)⟩, S, hS,
        hcopies.transport hs.values hs.resolves⟩
      exact forall₂_compose (fun r r' r'' hr hr' =>
          (hr' x (by simpa using hne)).trans hr) hs.values hk.rows
    refine .bind (runStep_onTable hX hF ?_ hXG hFG) fun _ => .pure fun _ h => h
    intro db db' t ht hs h
    obtain ⟨hs, S, hS, hcopies⟩ := hs
    have hshadow : t.columns.lookup (x ++ SHADOW_COLUMN_SUFFIX) = some D := by
      rw [hs.columns]
      exact hD
    obtain ⟨-, -, -, -, -, -, hdrop⟩ := cutover_values hne ht hshadow h
    rw [hs.columns, hS, hs.referenced] at hdrop
    exact absurd ⟨⟨S, hS, hcopies⟩, hdrop rfl⟩ hno
  · refine .transaction (fun st db fs h _ => ?_) fun st fs h => ?_
    · obtain ⟨t, -, hno⟩ := h
      exact hno
    · obtain ⟨t, -, hno⟩ := h
      exact hno.elim

/-! ### An attempt without faults -/

/-- The table has its row in `_meta_tables`. -/
def TenantSchema.Knows (db : TenantSchema) (tableId : Uuid) : Prop :=
  ∃ m ∈ db.metaTables, m.id = tableId

theorem runStep_succeeds {P Q : TenantSchema → Prop} {s : FieldEditStep}
    (hstep : ∀ db, P db → ∃ db', executeStep pg d.tableName s db = .ok db' ∧ Q db')
    (hknows : ∀ db, Q db → db.Knows d.tableId)
    (hstable : ∀ db rows, Q db → Q { db with metaMigrations := rows }) :
    TxProg.Succeeds P (runStep pg d s) Q := by
  refine .tryCatch (.bind (.transaction hstep) fun _ => .write fun db hQ => ?_)
  obtain ⟨m, hm, hid⟩ := hknows db hQ
  have hknown : (db.metaTables.any fun m => m.id == d.tableId) = true :=
    List.any_eq_true.mpr ⟨m, hm, beq_iff_eq.mpr hid⟩
  refine ⟨_, ?_, hstable db (db.metaMigrations ++ [stepMigration d s .completed none]) hQ⟩
  simp [stepMigration, hknown]

theorem cutover_eq_ok (pg : Postgres) {name c s : String} {t : PhysTable} {S D : ColumnDef}
    (hne : c ≠ s)
    (ht : db.tables.lookup name = some t) (hS : t.columns.lookup c = some S)
    (hD : t.columns.lookup s = some D)
    (hdrop : ¬(c = "id" ∧ db.referenced name = true)) :
    ∃ db', executeStep pg name (.cutoverColumn c s c) db = .ok db' := by
  have hkey : (c == "id" && db.referenced name) = false := by
    rw [← Bool.not_eq_true, Bool.and_eq_true, beq_iff_eq]
    exact hdrop
  have hdropped : ∃ t', db.dropColumn name c = .ok (db.setTable name t') ∧
      t'.columns = t.columns.erase c := by
    rw [TenantSchema.dropColumn, ht]
    simp only [hS, hkey, Option.isNone_some, Bool.false_eq_true, if_false]
    exact ⟨_, rfl, rfl⟩
  obtain ⟨t', hdropped, hcols⟩ := hdropped
  have hold : t'.columns.lookup s = some D := by
    rw [hcols, AList.lookup_erase_ne (Ne.symm hne)]
    exact hD
  have hfree : t'.columns.lookup c = none := by
    rw [hcols, AList.lookup_erase]
  simp only [executeStep, hasColumn_of_lookup ht, hS, hD, Option.isSome_some, Bool.not_true,
    Bool.and_false, Bool.false_eq_true, if_false, if_true, hdropped, bind, Except.bind]
  simp [TenantSchema.renameColumn, hold, hfree]

/-- Without faults the job completes on any column that `x` can be converted into, and
takes that column for its own. -/
theorem processFieldEdit_succeeds {D : ColumnDef} (hm : Modifies d x dataType)
    (ht : db.tables.lookup d.tableName = some start) (hknows : db.Knows d.tableId)
    (hD : start.columns.lookup (x ++ SHADOW_COLUMN_SUFFIX) = some D)
    (hconvertible : Convertible pg db d.tableName start x D) :
    TxProg.Succeeds (fun db' => db' = db) (processFieldEdit pg d) fun db' =>
      ∃ t, db'.tables.lookup d.tableName = some t ∧ t.columns.lookup x = some D ∧
        t.columns.lookup (x ++ SHADOW_COLUMN_SUFFIX) = none := by
  obtain ⟨⟨required, config, hsteps⟩, ⟨required', config', heffects⟩, -⟩ := hm
  obtain ⟨⟨S, hS, hcopies⟩, hdrop⟩ := hconvertible
  have hne := ne_shadow x
  let P₁ : TenantSchema → Prop := fun db' => db'.Knows d.tableId ∧
    db'.tables.lookup d.tableName = some start ∧
        db'.referenced d.tableName = db.referenced d.tableName ∧
      ∀ target v, db.resolves target v = db'.resolves target v
  let P₂ : TenantSchema → Prop := fun db' => db'.Knows d.tableId ∧ ∃ t,
    db'.tables.lookup d.tableName = some t ∧ t.columns = start.columns ∧
      db'.referenced d.tableName = db.referenced d.tableName
  let P₃ : TenantSchema → Prop := fun db' => db'.Knows d.tableId ∧ ∃ t,
    db'.tables.lookup d.tableName = some t ∧ t.columns.lookup x = some D ∧
      t.columns.lookup (x ++ SHADOW_COLUMN_SUFFIX) = none
  refine .bind (Q := P₃) ?_ fun _ => .transaction fun db₁ h₁ => ?_
  · rw [hsteps]
    refine .bind (Q := P₁) (runStep_succeeds ?_ (fun _ h => h.1) fun _ _ h => h) fun _ => ?_
    · rintro db₁ rfl
      refine ⟨db₁, ?_, hknows, ht, rfl, fun _ _ => rfl⟩
      simp [executeStep, hasColumn_of_lookup ht, hD, pure, Except.pure]
    refine .bind (Q := P₂) (runStep_succeeds ?_ (fun _ h => h.1) fun _ _ h => h) fun _ => ?_
    · rintro db₁ ⟨hknows₁, ht₁, href, hresolves⟩
      have hcopies₁ := hcopies.transport (List.forall₂_same.mpr fun _ _ => rfl) hresolves
      obtain ⟨rows, hcopy, -⟩ := copyColumn_eq_ok ht₁ hS hD hcopies₁
      have hch : TableChange d.tableName start { start with rows := rows } db₁ _ := .setTable ht₁
      exact ⟨_, hcopy, hknows₁, _, hch.after, rfl, (hch.referenced rfl).trans href⟩
    refine .bind (Q := P₃) (runStep_succeeds ?_ (fun _ h => h.1) fun _ _ h => h) fun _ => .pure
    rintro db₁ ⟨⟨m, hm, hid⟩, t, ht₁, hcols, href⟩
    have hS₁ : t.columns.lookup x = some S := hcols ▸ hS
    have hD₁ : t.columns.lookup (x ++ SHADOW_COLUMN_SUFFIX) = some D := hcols ▸ hD
    obtain ⟨db₂, h₂⟩ := cutover_eq_ok pg hne ht₁ hS₁ hD₁ (href ▸ hdrop)
    obtain ⟨t', hch, -, hcol, hgone, -, -⟩ := cutover_values hne ht₁ hD₁ h₂
    exact ⟨db₂, h₂, ⟨m, hch.metaTables ▸ hm, hid⟩, t', hch.after, hcol, hgone⟩
  · obtain ⟨⟨m, hm, hid⟩, t, ht₁, hcol, hgone⟩ := h₁
    have hknown : (db₁.metaTables.any fun m => m.id == d.tableId) = true :=
      List.any_eq_true.mpr ⟨m, hm, beq_iff_eq.mpr hid⟩
    have hok : ∃ db₂, d.metadataEffects.foldlM (applyEffect d.tableId) db₁ = .ok db₂ := by
      rw [heffects]
      simp only [List.foldlM_cons, List.foldlM_nil, applyEffect, upsertMetaField, hknown,
        Bool.not_true, Option.any_none, Bool.or_self, Bool.false_eq_true, if_false]
      split
      · exact ⟨_, rfl⟩
      · exact ⟨_, rfl⟩
    obtain ⟨db₂, h₂⟩ := hok
    refine ⟨db₂, h₂, t, ?_, hcol, hgone⟩
    rw [(Catalog.applyEffects_frame h₂).1]
    exact ht₁

end Conversion

/-! ### The job as a whole -/

section Jobs

variable {env : Env} {job job' : Job} {db db' : TenantSchema} {d : FieldEditJobData} {x : String}
  {dataType : FieldDataType} {type : PgType} {start : PhysTable}

theorem Job.run_of_triple {P Q E : TenantSchema → Prop} (hd : job.data = .fieldEdit d)
    (h : TxProg.Triple (fun st => P st.store) (processFieldEdit env.pg d) (fun _ st => Q st.store)
      fun st => E st.store) (faults : List (Option String)) (hdb : P db) :
    ((job.run env faults db).1.state = .completed ∧ Q (job.run env faults db).2) ∨
      ((job.run env faults db).1.state ≠ .completed ∧ E (job.run env faults db).2) := by
  have hrun := h { store := db, faults := faults, committed := 0 } hdb
  have hp : process env.pg job.data = processFieldEdit env.pg d := by
    rw [hd]
    rfl
  unfold Job.run
  rw [hp]
  revert hrun
  cases (processFieldEdit env.pg d).exec { store := db, faults := faults, committed := 0 } with
  | mk r s =>
    cases r with
    | ok a => exact fun hq => .inl ⟨rfl, hq⟩
    | error e =>
      refine fun he => .inr ⟨?_, he⟩
      dsimp only
      split <;> simp

theorem Job.run_of_succeeds {P Q : TenantSchema → Prop} (hd : job.data = .fieldEdit d)
    (h : TxProg.Succeeds P (processFieldEdit env.pg d) Q) (hdb : P db) :
    (job.run env [] db).1.state = .completed ∧ Q (job.run env [] db).2 := by
  obtain ⟨a, s, hexec, -, hs⟩ := h { store := db, faults := [], committed := 0 } hdb rfl
  have hp : process env.pg job.data = processFieldEdit env.pg d := by
    rw [hd]
    rfl
  unfold Job.run
  rw [hp, hexec]
  exact ⟨rfl, hs⟩

theorem Retried.data (h : Retried env job db job' db') : job'.data = job.data := by
  induction h with
  | start => rfl
  | failed faults _ _ ih => exact (Job.run_attempted env _ faults _).data.trans ih

theorem Retried.keeps {P Q : TenantSchema → Prop} (hd : job.data = .fieldEdit d)
    (h : TxProg.Triple (fun st => P st.store) (processFieldEdit env.pg d) (fun _ st => Q st.store)
      fun st => P st.store) (hretried : Retried env job db job' db') (hdb : P db) : P db' := by
  induction hretried with
  | start => exact hdb
  | failed faults hbefore hdelayed ih =>
    rcases Job.run_of_triple (hbefore.data.trans hd) h faults ih with ⟨hcompleted, -⟩ | ⟨-, hP⟩
    · rw [hdelayed] at hcompleted
      cases hcompleted
    · exact hP

/-- An attempt from anywhere underway, as a rule without the table it starts on. -/
theorem processFieldEdit_underway {pg : Postgres} (hm : Modifies d x dataType)
    (htyped : addTypedColumn dataType = .ok type) :
    TxProg.Triple (fun st => ∃ t, st.store.tables.lookup d.tableName = some t ∧
        Underway x type start t)
      (processFieldEdit pg d) (fun _ _ => True)
      fun st => ∃ t, st.store.tables.lookup d.tableName = some t ∧ Underway x type start t := by
  rintro st ⟨t, ht, hu⟩
  have htriple : TxProg.Triple (fun st => st.store.tables.lookup d.tableName = some t)
      (processFieldEdit pg d)
      (fun _ st => ∃ t', st.store.tables.lookup d.tableName = some t' ∧ CutOver pg x type t t')
      fun st => ∃ t', st.store.tables.lookup d.tableName = some t' ∧ Underway x type start t' :=
    processFieldEdit_converts hm htyped hu
  have h := htriple st ht
  revert h
  cases (processFieldEdit pg d).exec st with
  | mk r s =>
    cases r with
    | ok a => exact fun _ => trivial
    | error e => exact fun he => he

/-- Where every other column of the shadow's name has the new type and is no field, a job that
completes has converted `x` and nothing else. -/
theorem Retried.converted {faults : List (Option String)} (hm : Modifies d x dataType)
    (htyped : addTypedColumn dataType = .ok type) (hjob : job.data = .fieldEdit d)
    (hstart : db.tables.lookup d.tableName = some start)
    (hshadow : ∀ D, start.columns.lookup (x ++ SHADOW_COLUMN_SUFFIX) = some D →
      x ++ SHADOW_COLUMN_SUFFIX ∉ db.fieldSlugs d.tableId ∧ D.type = type)
    (hretried : Retried env job db job' db')
    (hcompleted : (job'.run env faults db').1.state = .completed) :
    ∃ before after, db'.tables.lookup d.tableName = some before ∧
      (job'.run env faults db').2.tables.lookup d.tableName = some after ∧
      Converted env.pg (db.fieldSlugs d.tableId) x type start before after := by
  let P : TenantSchema → Prop := fun db' => ∃ t, db'.tables.lookup d.tableName = some t ∧
    Underway x type start t
  have hfirst : P db := ⟨start, hstart, .refl start, fun D hD => (hshadow D hD).2⟩
  have hdb' : P db' := hretried.keeps (P := P) (Q := fun _ => True) hjob
    (processFieldEdit_underway hm htyped) hfirst
  obtain ⟨before, hbefore, hu⟩ := hdb'
  have htriple : TxProg.Triple (fun st => st.store.tables.lookup d.tableName = some before)
      (processFieldEdit env.pg d)
      (fun _ st => ∃ t, st.store.tables.lookup d.tableName = some t ∧
          CutOver env.pg x type before t)
      fun st => P st.store := processFieldEdit_converts hm htyped hu
  rcases Job.run_of_triple (P := fun db' => db'.tables.lookup d.tableName = some before)
      (Q := fun db' => ∃ t, db'.tables.lookup d.tableName = some t ∧
          CutOver env.pg x type before t)
      (E := P) (hretried.data.trans hjob) htriple faults hbefore
    with ⟨-, after, hafter, hcut⟩ | ⟨hno, -⟩
  · refine ⟨before, after, hbefore, hafter, hcut.column, hcut.values, fun c hc hcx => ?_⟩
    have hkeep := hu.keeps.trans hcut.keeps
    by_cases hcs : c = x ++ SHADOW_COLUMN_SUFFIX
    · have hnone : start.columns.lookup c = none := by
        rw [← Option.not_isSome_iff_eq_none]
        intro hsome
        obtain ⟨D, hD⟩ := Option.isSome_iff_exists.mp hsome
        rw [hcs] at hD hc
        exact (hshadow D hD).1 hc
      rw [hnone, hcs, hcut.gone]
      exact ⟨rfl, fun h => by cases h⟩
    · have hout : c ∉ [x, x ++ SHADOW_COLUMN_SUFFIX] := by simp [hcx, hcs]
      exact ⟨hkeep.columns c hout, fun _ => hkeep.rows.imp fun _ _ hr => hr c hout⟩
  · exact absurd hcompleted hno

/-- A column of the shadow's name that stops the job stops every retry. -/
theorem Retried.not_completed {D : ColumnDef} (faults : List (Option String))
    (hm : Modifies d x dataType) (hjob : job.data = .fieldEdit d)
    (hstart : db.tables.lookup d.tableName = some start)
    (hD : start.columns.lookup (x ++ SHADOW_COLUMN_SUFFIX) = some D)
    (hno : ¬Convertible env.pg db d.tableName start x D) (hretried : Retried env job db job' db') :
    (job'.run env faults db').1.state ≠ .completed := by
  let P : TenantSchema → Prop := fun db' => ∃ t, db'.tables.lookup d.tableName = some t ∧
    Stuck db d.tableName x start db' t
  have htriple : TxProg.Triple (fun st => P st.store) (processFieldEdit env.pg d)
      (fun _ _ => False)
      fun st => P st.store := processFieldEdit_stuck hm hD hno
  have hfirst : P db :=
    ⟨start, hstart, rfl, List.forall₂_same.mpr fun _ _ => rfl, rfl, fun _ _ => rfl⟩
  have hdb' : P db' := hretried.keeps (Q := fun _ => False) hjob htriple hfirst
  rcases Job.run_of_triple (Q := fun _ => False) (hretried.data.trans hjob) htriple faults hdb'
    with ⟨-, hno⟩ | ⟨hno, -⟩
  · exact hno.elim
  · exact hno

/-- Without faults, a column that the values go into takes the place of `x`, so an isolated
conversion has found no other than its own. -/
theorem ModifyIsolated.ready (hm : Modifies d x dataType) (hjob : job.data = .fieldEdit d)
    (hstart : db.tables.lookup d.tableName = some start) (hknows : db.Knows d.tableId)
    (h : ModifyIsolated env job d x type db start) : ShadowReady env.pg db d x type start := by
  intro D hD
  by_contra hbad
  rw [not_or, not_not] at hbad
  obtain ⟨hnot, hconvertible⟩ := hbad
  have hrun : (job.run env [] db).1.state = .completed ∧
      ∃ t, (job.run env [] db).2.tables.lookup d.tableName = some t ∧
        t.columns.lookup x = some D ∧ t.columns.lookup (x ++ SHADOW_COLUMN_SUFFIX) = none :=
    Job.run_of_succeeds hjob (processFieldEdit_succeeds hm hstart hknows hD hconvertible) rfl
  obtain ⟨hcompleted, t, ht, hcol, hgone⟩ := hrun
  obtain ⟨before, after, -, hafter, hconverted⟩ := h job db [] .start hcompleted
  have heq : after = t := Option.some.inj (hafter.symm.trans ht)
  subst heq
  obtain ⟨D', hD', htype⟩ := hconverted.column
  have hsame : D' = D := Option.some.inj (hD'.symm.trans hcol)
  refine hnot ⟨fun hdeclared => ?_, hsame ▸ htype⟩
  obtain ⟨hlookup, -⟩ := hconverted.others _ hdeclared (Ne.symm (ne_shadow x))
  rw [hgone, hD] at hlookup
  cases hlookup

end Jobs

/-- A conversion is isolated exactly when no other column passes for its shadow, or such a
column stops it. -/
theorem modify_isolated {env : Env} {cfg : Config} {accepting db : TenantSchema}
    {pending : List DdlJobData} {jobId tableId : Uuid} {dto : UpdateFieldDto} {edit : FieldEditDto}
    {d : FieldEditJobData} {dataType : FieldDataType} {type : PgType} {job : Job}
    {start : PhysTable}
    (haccepted : enqueueFieldEdit cfg accepting pending jobId tableId dto = .ok d)
    (hdto : dto.edits = [edit]) (hop : edit.operation = .modify)
    (hT : edit.dataType = some dataType)
    (htyped : addTypedColumn dataType = .ok type) (hjob : job.data = .fieldEdit d)
    (hstart : db.tables.lookup d.tableName = some start) (hknows : db.Knows d.tableId) :
    ModifyIsolated env job d edit.name type db start ↔
      ShadowReady env.pg db d edit.name type start := by
  have hm := modifies_of_accepted haccepted hdto hop hT
  refine ⟨ModifyIsolated.ready hm hjob hstart hknows, fun hready => ?_⟩
  intro job' db' faults hretried hcompleted
  by_cases hstuck : ∃ D, start.columns.lookup (edit.name ++ SHADOW_COLUMN_SUFFIX) = some D ∧
      ¬Convertible env.pg db d.tableName start edit.name D
  · obtain ⟨D, hD, hno⟩ := hstuck
    exact absurd hcompleted (hretried.not_completed faults hm hjob hstart hD hno)
  · have hshadow (D : ColumnDef)
        (hD : start.columns.lookup (edit.name ++ SHADOW_COLUMN_SUFFIX) = some D) :
        edit.name ++ SHADOW_COLUMN_SUFFIX ∉ db.fieldSlugs d.tableId ∧ D.type = type :=
      (hready D hD).resolve_right fun hno => hstuck ⟨D, hD, hno⟩
    exact hretried.converted hm htyped hjob hstart hshadow hcompleted

/-! ### `title` as text -/

def editJob (d : FieldEditJobData) : Job :=
  { id := d.jobId, data := .fieldEdit d, attemptsMade := 0, state := .waiting, failedReason := none,
    committed := 0, tablesAtAcceptance := [] }

/-- `orders` with its field, and no column that passes for the shadow of `title`. -/
def titleReady (w : World) (d : FieldEditJobData) : Bool :=
  d.tableName == "orders" && d.tableId == 1 && w.db.metaTables.any (fun m => m.id == 1) &&
    (w.db.tables.lookup "orders").any fun t => (t.columns.lookup "title__shadow").isNone

theorem modify_isolated_title : ∃ db d start,
    enqueueFieldEdit {} db [] 2 1 (modifyField "title" .TEXT) = .ok d ∧
      ModifyIsolated plainEnv (editJob d) d "title" .text db start := by
  have hrun : ((runAll (step plainEnv) (provisioned "tenant_a" fun _ => [])
      [.createTable ordersTable, .attempt 0 []]).any fun w =>
        (enqueueFieldEdit {} w.db [] 2 1 (modifyField "title" .TEXT)).toOption.any
            (titleReady w)) = true := by
    decide +kernel
  obtain ⟨w, -, haccepted⟩ := (Option.any_eq_true _ _).mp hrun
  obtain ⟨d, hd, hready⟩ := (Option.any_eq_true _ _).mp haccepted
  have hok := except_of_toOption hd
  simp only [titleReady, Bool.and_eq_true, beq_iff_eq] at hready
  obtain ⟨⟨⟨hname, hid⟩, hmeta⟩, htable⟩ := hready
  obtain ⟨start, hstart, hnone⟩ := (Option.any_eq_true _ _).mp htable
  obtain ⟨m, hm, hmid⟩ := List.any_eq_true.mp hmeta
  have hknows : w.db.Knows d.tableId := ⟨m, hm, (beq_iff_eq.mp hmid).trans hid.symm⟩
  refine ⟨w.db, d, start, hok,
      (modify_isolated hok rfl rfl rfl rfl rfl (hname ▸ hstart) hknows).mpr ?_⟩
  intro D hD
  have hshadow : start.columns.lookup "title__shadow" = some D := hD
  rw [hshadow] at hnone
  cases hnone

/-- The first conversion of `title` fails for good after it has made its shadow. -/
def leftoverRun : List Event :=
  [.createTable ordersTable, .attempt 0 [], .fieldEdit 1 (modifyField "title" .STRING),
    .attempt 2 [none, none, some "connection lost"], .attempt 2 [some "connection lost"],
    .attempt 2 [some "connection lost"]]

/-- A conversion to text leaves `title` as it was. -/
def titleNotText (w : World) (d : FieldEditJobData) : Bool :=
  d.tableName == "orders" && d.tableId == 1 && w.db.metaTables.any (fun m => m.id == 1) &&
    ((editJob d).run plainEnv [] w.db).1.state == .completed &&
      (w.db.tables.lookup "orders").isSome &&
        (((editJob d).run plainEnv [] w.db).2.tables.lookup "orders").all fun t =>
          (t.columns.lookup "title").all fun D => D.type == .varchar255

/-- The shadow that a failed conversion leaves behind becomes the column of the next one. -/
theorem leftover_shadow_adopted : ¬ ∀ (env : Env) (cfg : Config) (accepting db : TenantSchema)
    (pending : List DdlJobData) (jobId tableId : Uuid) (dto : UpdateFieldDto) (edit : FieldEditDto)
    (d : FieldEditJobData) (dataType : FieldDataType) (type : PgType) (job : Job)
    (start : PhysTable),
    enqueueFieldEdit cfg accepting pending jobId tableId dto = .ok d → dto.edits = [edit] →
    edit.operation = .modify → edit.dataType = some dataType → addTypedColumn dataType = .ok type →
    job.data = .fieldEdit d → db.tables.lookup d.tableName = some start → db.Knows d.tableId →
      ModifyIsolated env job d edit.name type db start := by
  intro hall
  have hrun : ((runAll (step plainEnv) (provisioned "tenant_a" fun _ => []) leftoverRun).any
      fun w =>
        (enqueueFieldEdit {} w.db [] 3 1 (modifyField "title" .TEXT)).toOption.any
            (titleNotText w)) = true := by
    decide +kernel
  obtain ⟨w, -, haccepted⟩ := (Option.any_eq_true _ _).mp hrun
  obtain ⟨d, hd, hbad⟩ := (Option.any_eq_true _ _).mp haccepted
  simp only [titleNotText, Bool.and_eq_true, beq_iff_eq] at hbad
  obtain ⟨⟨⟨⟨⟨hname, hid⟩, hmeta⟩, hcompleted⟩, htable⟩, hstill⟩ := hbad
  obtain ⟨start, hstart⟩ := Option.isSome_iff_exists.mp htable
  obtain ⟨m, hm, hmid⟩ := List.any_eq_true.mp hmeta
  have hknows : w.db.Knows d.tableId := ⟨m, hm, (beq_iff_eq.mp hmid).trans hid.symm⟩
  have hisolated := hall plainEnv {} w.db w.db [] 3 1 (modifyField "title" .TEXT) _ d .TEXT .text
      (editJob d)
    start (except_of_toOption hd) rfl rfl rfl rfl rfl (hname ▸ hstart) hknows
  obtain ⟨before, after, -, hafter, hconverted⟩ := hisolated (editJob d) w.db [] .start hcompleted
  obtain ⟨D, hD, htype⟩ := hconverted.column
  rw [hname] at hafter
  rw [hafter, Option.all_some] at hstill
  have hcol : after.columns.lookup "title" = some D := hD
  rw [hcol, Option.all_some, beq_iff_eq, htype] at hstill
  cases hstill

end Flexi.DynamicTables
