import Flexi.DynamicTables.EditRetry
import Flexi.DynamicTables.TableOwnership

/-!
# Metadata and physical columns

A field edit commits its steps one by one and its metadata last. A job that
fails for good after a step was committed leaves the two apart, by design. When
no job does that and every job's steps fit the table they meet, the metadata
rows describe the physical columns whenever no job is unfinished.
-/

namespace Flexi.DynamicTables
open Flexi.Library Relation

/-! ### Agreement of one table -/

/-- The column `d` is what `addTypedColumn` or `addRelationColumn` makes for the
field `f`. -/
structure FieldAgrees (schema : String) (metaTables : List MetaTable) (f : MetaField)
    (d : ColumnDef) : Prop where
  typed : f.dataType ≠ .RELATION → addTypedColumn f.dataType = .ok d.type ∧ d.references = none
  relation : f.dataType = .RELATION → d.type = .integer ∧ ∃ target ∈ metaTables,
    f.relationTargetTableId = some target.id ∧ d.references = some (schema ++ "." ++ target.name)
  optional : f.required = false → d.nullable = true

/-- The rows of `tableId` and the non-system columns of `C` match one to one. -/
structure FieldsMatch (schema : String) (metaTables : List MetaTable) (tableId : Uuid)
    (fields : List MetaField) (C : ColumnMap) : Prop where
  declared : ∀ f ∈ fields, f.tableId = tableId → f.slug ∉ systemColumns ∧
    ∃ d, C f.slug = some d ∧ FieldAgrees schema metaTables f d
  covered : ∀ n d, C n = some d → n ∉ systemColumns → ∃ f ∈ fields, f.tableId = tableId ∧ f.slug = n

/-- The metadata of `m` describes its physical table. -/
def Agrees (db : TenantSchema) (m : MetaTable) : Prop :=
  ∃ t, db.tables.lookup m.name = some t ∧
    FieldsMatch db.schema db.metaTables m.id db.metaFields t.columnMap

def SystemPresent (C : ColumnMap) : Prop := ∀ c ∈ systemColumns, (C c).isSome

section Match

variable {schema : String} {metaTables metaTables' : List MetaTable} {tableId : Uuid}
  {fields fields' : List MetaField} {C : ColumnMap}

theorem FieldAgrees.mono {f : MetaField} {d : ColumnDef} (h : FieldAgrees schema metaTables f d)
    (hm : ∀ m ∈ metaTables, ∃ m' ∈ metaTables', m'.id = m.id ∧ m'.name = m.name) :
    FieldAgrees schema metaTables' f d where
  typed := h.typed
  relation := fun hr => by
    obtain ⟨hty, m, hmem, hid, href⟩ := h.relation hr
    obtain ⟨m', hm', hid', hn'⟩ := hm m hmem
    exact ⟨hty, m', hm', by rw [hid']; exact hid, by rw [hn']; exact href⟩
  optional := h.optional

/-- A match depends on the rows of its table only, and on the names of registered
tables. -/
theorem FieldsMatch.transport (h : FieldsMatch schema metaTables tableId fields C)
    (hm : ∀ m ∈ metaTables, ∃ m' ∈ metaTables', m'.id = m.id ∧ m'.name = m.name)
    (hf : ∀ f, f.tableId = tableId → (f ∈ fields' ↔ f ∈ fields)) :
    FieldsMatch schema metaTables' tableId fields' C where
  declared := fun f hmem hid => by
    obtain ⟨hsys, d, hC, hd⟩ := h.declared f ((hf f hid).mp hmem) hid
    exact ⟨hsys, d, hC, hd.mono hm⟩
  covered := fun n d hC hsys => by
    obtain ⟨f, hmem, hid, hs⟩ := h.covered n d hC hsys
    exact ⟨f, (hf f hid).mpr hmem, hid, hs⟩

theorem match_of_layout {declared : List CreateTableJobField} {t : PhysTable}
    (hl : Layout declared t.columns)
    (hrows : ∀ f ∈ fields, f.tableId = tableId → ∃ field ∈ declared, f = createdField tableId field)
    (hall : ∀ field ∈ declared, createdField tableId field ∈ fields) :
    SystemPresent t.columnMap ∧ FieldsMatch schema metaTables tableId fields t.columnMap := by
  refine ⟨fun c hc => ?_, fun f hf hid => ?_, fun n d hC hsys => ?_⟩
  · obtain ⟨d, hd⟩ := (mem_systemColumns c).mp hc
    have hC : t.columnMap c = some d := hl.system (c, d) hd
    rw [hC]
    rfl
  · obtain ⟨field, hfield, rfl⟩ := hrows f hf hid
    obtain ⟨type, hty, hC⟩ := hl.declared field hfield
    refine ⟨hl.names_free field hfield, _, hC, ⟨fun _ => ⟨hty, rfl⟩, fun hr => ?_, fun hreq => ?_⟩⟩
    · have hr : field.dataType = .RELATION := hr
      rw [hr] at hty
      cases hty
    · have hreq : field.required = false := hreq
      simp [typedColumn, hreq]
  · rcases hl.only n d hC with h | ⟨field, hfield, rfl⟩
    · exact absurd h hsys
    · exact ⟨_, hall field hfield, rfl, rfl⟩

end Match

/-! ### The undisturbed run of a plan -/

section Effects

variable {db db' : TenantSchema} {tableId : Uuid} {D : ColumnMap}

/-- The target of a relation edit is registered under its id and name. -/
def TargetsKnown (metaTables : List MetaTable) (plan : List PlannedEdit) : Prop :=
  ∀ c target required config, .addRelation c target required config ∈ plan →
    ∃ m ∈ metaTables, m.id = target.id ∧ m.name = target.name

/-- What an edit leaves in its column agrees with the row its effect writes. -/
theorem match_upsert {row : MetaField} {d : ColumnDef} {p : PlannedEdit}
    (hdb : FieldsMatch db.schema db.metaTables tableId db.metaFields D)
    (hsys : p.column ∉ systemColumns) (hrow : row.tableId = tableId ∧ row.slug = p.column)
    (hdef : p.defines db.schema = some d) (hag : FieldAgrees db.schema db.metaTables row d)
    (h : upsertMetaField row db = .ok db') :
    FieldsMatch db'.schema db'.metaTables tableId db'.metaFields (p.apply db.schema D) := by
  obtain ⟨-, hmeta, hsch, -, hmem⟩ := upsertMetaField_ok h
  obtain ⟨hid, hslug⟩ := hrow
  rw [hmeta, hsch]
  refine ⟨fun f hf hfid => ?_, fun n d' hC hn => ?_⟩
  · rcases (hmem f).mp hf with rfl | ⟨hf, hne⟩
    · rw [hslug]
      exact ⟨hsys, d, by rw [PlannedEdit.apply, Function.update_self, hdef], hag⟩
    · obtain ⟨hfs, d', hC, hd'⟩ := hdb.declared f hf hfid
      have hfc : f.slug ≠ p.column := fun he => hne ⟨hfid.trans hid.symm, he.trans hslug.symm⟩
      exact ⟨hfs, d', by rw [PlannedEdit.apply, Function.update_of_ne hfc]; exact hC, hd'⟩
  · by_cases hc : n = p.column
    · exact ⟨row, (hmem row).mpr (.inl rfl), hid, hslug.trans hc.symm⟩
    · rw [PlannedEdit.apply, Function.update_of_ne hc] at hC
      obtain ⟨f, hf, hfid, hfs⟩ := hdb.covered n d' hC hn
      refine ⟨f, (hmem f).mpr (.inr ⟨hf, fun hk => hc ?_⟩), hfid, hfs⟩
      rw [← hfs, hk.2, hslug]

theorem match_effect {p : PlannedEdit} (hsysp : SystemPresent D)
    (hdb : FieldsMatch db.schema db.metaTables tableId db.metaFields D) (hfit : p.Fits D)
    (htarget : ∀ c target required config, p = .addRelation c target required config →
      ∃ m ∈ db.metaTables, m.id = target.id ∧ m.name = target.name)
    (h : applyEffect tableId db p.effect = .ok db') :
    SystemPresent (p.apply db.schema D) ∧
      FieldsMatch db'.schema db'.metaTables tableId db'.metaFields (p.apply db.schema D) := by
  have hcol : p.column ∉ systemColumns := by
    intro hm
    cases p with
    | add c _ _ _ _ | addRelation c _ _ _ =>
      have hnone : D c = none := hfit
      have hsome : (D c).isSome := hsysp c hm
      rw [hnone] at hsome
      cases hsome
    | remove c => exact hfit hm
    | modify c _ _ _ _ => exact hfit.1 hm
  refine ⟨fun c hc => ?_, ?_⟩
  · have hne : c ≠ p.column := fun he => hcol (he ▸ hc)
    rw [PlannedEdit.apply, Function.update_of_ne hne]
    exact hsysp c hc
  · cases p with
    | add c dataType required config typed =>
      obtain ⟨type, hty, hdef⟩ := typedDef_ok typed required
      refine match_upsert hdb hcol ⟨rfl, rfl⟩ hdef ⟨fun _ => ⟨hty, rfl⟩, fun hr => ?_, fun hreq => ?_⟩ h
      · exact absurd hr typed
      · have hreq : required = false := hreq
        simp [typedColumn, hreq]
    | addRelation c target required config =>
      obtain ⟨m, hm, hid, hn⟩ := htarget c target required config rfl
      refine match_upsert hdb hcol ⟨rfl, rfl⟩ rfl ⟨fun hr => absurd rfl hr, fun _ => ?_, fun hreq => ?_⟩ h
      · exact ⟨rfl, m, hm, by rw [hid], by rw [hn]; rfl⟩
      · have hreq : required = false := hreq
        simp [addRelationColumn, hreq]
    | modify c dataType required config typed =>
      obtain ⟨type, hty, hdef⟩ := typedDef_ok typed false
      refine match_upsert hdb hcol ⟨rfl, rfl⟩ hdef ⟨fun _ => ⟨hty, rfl⟩, fun hr => ?_, fun _ => rfl⟩ h
      exact absurd hr typed
    | remove c =>
      cases h
      have hself : (PlannedEdit.remove c).apply db.schema D c = none := Function.update_self _ _ _
      have hother : ∀ n, n ≠ c → (PlannedEdit.remove c).apply db.schema D n = D n :=
        fun n hn => Function.update_of_ne hn _ _
      refine ⟨fun f hf hfid => ?_, fun n d hC hn => ?_⟩
      · obtain ⟨hf, hkeep⟩ := List.mem_filter.mp hf
        obtain ⟨hfs, d, hC, hd⟩ := hdb.declared f hf hfid
        have hne : f.slug ≠ c := fun he => by simp [hfid, he] at hkeep
        exact ⟨hfs, d, by rw [hother _ hne]; exact hC, hd⟩
      · have hne : n ≠ c := by
          rintro rfl
          rw [hself] at hC
          cases hC
        rw [hother n hne] at hC
        obtain ⟨f, hf, hfid, hfs⟩ := hdb.covered n d hC hn
        refine ⟨f, List.mem_filter.mpr ⟨hf, ?_⟩, hfid, hfs⟩
        simp [hfid, hfs, hne]

/-- The metadata a fitting plan commits describes the columns its run leaves. -/
theorem match_plan {plan : List PlannedEdit} (hsysp : SystemPresent D)
    (hdb : FieldsMatch db.schema db.metaTables tableId db.metaFields D)
    (hfits : PlanFits db.schema D plan) (ht : TargetsKnown db.metaTables plan)
    (h : (plan.map PlannedEdit.effect).foldlM (applyEffect tableId) db = .ok db') :
    SystemPresent (planColumns db.schema D plan) ∧
      FieldsMatch db'.schema db'.metaTables tableId db'.metaFields
        (planColumns db.schema D plan) := by
  induction plan generalizing db D with
  | nil =>
    cases h
    exact ⟨hsysp, hdb⟩
  | cons p plan ih =>
    rw [List.map_cons, List.foldlM_cons] at h
    obtain ⟨db₁, h₁, h⟩ := except_bind_ok.mp h
    have htarget : ∀ c target required config, p = .addRelation c target required config →
        ∃ m ∈ db.metaTables, m.id = target.id ∧ m.name = target.name := by
      rintro c target required config rfl
      exact ht c target required config List.mem_cons_self
    obtain ⟨hsysp₁, hdb₁⟩ := match_effect hsysp hdb hfits.1 htarget h₁
    obtain ⟨-, hmeta, hs, -⟩ := Catalog.applyEffect_frame h₁
    have ht₁ : TargetsKnown db₁.metaTables plan := by
      rw [hmeta]
      exact fun c target required config hm => ht c target required config (List.mem_cons_of_mem p hm)
    have hfits₁ : PlanFits db₁.schema (p.apply db.schema D) plan := by
      rw [hs]
      exact hfits.2
    have hrest := ih hsysp₁ hdb₁ hfits₁ ht₁ h
    rw [hs] at hrest
    exact hrest

end Effects

/-! ### Writes that do not concern a table -/

/-- Nothing the match of `tableId` depends on changed. -/
structure Untouched (tableId : Uuid) (db db' : TenantSchema) : Prop where
  registered : ∀ m, m.id = tableId → (m ∈ db'.metaTables ↔ m ∈ db.metaTables)
  columns : ∀ m ∈ db.metaTables, m.id = tableId → ∀ t, db.tables.lookup m.name = some t →
    ∃ t', db'.tables.lookup m.name = some t' ∧ t'.columnMap = t.columnMap
  fields : ∀ f, f.tableId = tableId → (f ∈ db'.metaFields ↔ f ∈ db.metaFields)
  extend : Extends db db'

namespace Untouched

variable {tableId : Uuid} {db db' db'' : TenantSchema} {pg : Postgres}
  {accepted : DdlJobData → Prop}

theorem refl (tableId : Uuid) (db : TenantSchema) : Untouched tableId db db where
  registered := fun _ _ => Iff.rfl
  columns := fun _ _ _ t ht => ⟨t, ht, rfl⟩
  fields := fun _ _ => Iff.rfl
  extend := .refl db

theorem trans (h : Untouched tableId db db') (h' : Untouched tableId db' db'') :
    Untouched tableId db db'' where
  registered := fun m hid => (h'.registered m hid).trans (h.registered m hid)
  columns := fun m hm hid t ht => by
    obtain ⟨t', ht', hc⟩ := h.columns m hm hid t ht
    obtain ⟨t'', ht'', hc'⟩ := h'.columns m ((h.registered m hid).mpr hm) hid t' ht'
    exact ⟨t'', ht'', hc'.trans hc⟩
  fields := fun f hid => (h'.fields f hid).trans (h.fields f hid)
  extend := h.extend.trans h'.extend

theorem tableChange {name : String} {t t' : PhysTable} (h : TableChange name t t' db db')
    (hby : t'.createdBy = t.createdBy)
    (hcols : ∀ m ∈ db.metaTables, m.id = tableId → m.name = name → t'.columnMap = t.columnMap) :
    Untouched tableId db db' where
  registered := fun m _ => by rw [h.metaTables]
  columns := fun m hm hid u hu => by
    by_cases hn : m.name = name
    · rw [hn] at hu ⊢
      have hut : u = t := Option.some.inj (hu.symm.trans h.before)
      rw [hut]
      exact ⟨t', h.after, hcols m hm hid hn⟩
    · exact ⟨u, by rw [h.others _ hn]; exact hu, rfl⟩
  fields := fun f _ => by rw [h.metaFields]
  extend := .tableChange h hby

theorem write {data : DdlJobData} (hd : Distinct accepted) (hc : Catalog accepted db)
    (ha : accepted data) (hne : data.tableId ≠ tableId) (h : JobWrite pg data db db') :
    Untouched tableId db db' := by
  have hx := hc.write_extends hd ha h
  cases h with
  | migration => exact ⟨fun _ _ => Iff.rfl, fun _ _ _ t ht => ⟨t, ht, rfl⟩, fun _ _ => Iff.rfl, hx⟩
  | @create d _ _ hb =>
    have hreg := createTableBody_ok (hd.unreserved _ ha) hb
    obtain ⟨db₁, hf₁, hw⟩ := hreg.fields
    refine ⟨fun m hid => ?_, fun m _ _ t ht => ⟨t, hreg.lookup ht, rfl⟩, fun f hid => ?_, hx⟩
    · rw [hreg.metaTables m]
      constructor
      · rintro (rfl | ⟨hm, -⟩)
        · exact absurd hid hne
        · exact hm
      · exact fun hm => .inr ⟨hm, fun he => hne (he.symm.trans hid)⟩
    · constructor
      · intro hf
        rcases hw.mem f hf with ⟨field, -, rfl⟩ | ⟨hf, -⟩
        · exact absurd hid hne
        · rw [← hf₁]
          exact hf
      · intro hf
        rw [← hf₁] at hf
        exact hw.kept f hf fun hk => hne (hk.1.symm.trans hid)
  | @step d s _ _ _ hs =>
    obtain ⟨m, hm, hid, hn⟩ := hc.edit_table _ ha
    obtain ⟨t, ht⟩ := hc.meta_table m hm
    obtain ⟨t', hch, hk⟩ := executeStep_frame (hn ▸ ht) hs
    refine .tableChange hch hk.createdBy fun m' hm' hid' hn' => ?_
    have he := hc.name_inj m hm m' hm' (hn.trans hn'.symm)
    exact absurd (hid.symm.trans (he.trans hid')) hne
  | @effects d _ _ hs =>
    obtain ⟨htab, hmeta, hsch, hf⟩ := Catalog.applyEffects_frame hs
    refine ⟨fun m _ => by rw [hmeta], fun m _ _ t ht => ⟨t, by rw [htab]; exact ht, rfl⟩, ?_, hx⟩
    exact fun f hid => hf f fun he => hne (he.symm.trans hid)

theorem written {data : DdlJobData} (hd : Distinct accepted) (hc : Catalog accepted db)
    (ha : accepted data) (hne : data.tableId ≠ tableId)
    (h : ReflTransGen (JobWrite pg data) db db') : Untouched tableId db db' := by
  induction h with
  | refl => exact .refl tableId db
  | tail hr hw ih => exact ih.trans (.write hd (hc.written hd ha hr) ha hne hw)

end Untouched

/-! ### The state of one table between attempts -/

/-- The attempts of `job` so far have left the table partway through its plan. -/
structure Stopped (db : TenantSchema) (m : MetaTable) (t : PhysTable) (job : Job)
    (d : FieldEditJobData) (plan : List PlannedEdit) (start : ColumnMap) : Prop where
  data : job.data = .fieldEdit d
  tableId : d.tableId = m.id
  steps : d.steps = plan.flatMap PlannedEdit.steps
  effects : d.metadataEffects = plan.map PlannedEdit.effect
  fits : PlanFits db.schema start plan
  apart : ShadowsApart plan
  targets : TargetsKnown db.metaTables plan
  system : SystemPresent start
  matched : FieldsMatch db.schema db.metaTables m.id db.metaFields start
  partway : Partway db.schema plan start t.columnMap
  untouched : job.committed = 0 → t.columnMap = start

/-- The metadata describes the table, and no unfinished edit of it was tried. -/
structure Settled (w : World) (m : MetaTable) (t : PhysTable) : Prop where
  system : SystemPresent t.columnMap
  matched : FieldsMatch w.db.schema w.db.metaTables m.id w.db.metaFields t.columnMap
  untried : ∀ job ∈ w.jobs, ∀ d, job.data = .fieldEdit d → d.tableId = m.id →
    job.unfinished = true → job.attemptsMade = 0

/-- No field edit of the table failed for good after one of its transactions had
been committed. -/
def NoLostSteps (w : World) (tableId : Uuid) : Prop :=
  ∀ job ∈ w.jobs, ∀ d, job.data = .fieldEdit d → d.tableId = tableId → job.state = .failed →
    job.committed = 0

def TableState (w : World) (tableId : Uuid) : Prop :=
  NoLostSteps w tableId → ∀ m ∈ w.db.metaTables, m.id = tableId →
    ∃ t, w.db.tables.lookup m.name = some t ∧
      (Settled w m t ∨ ∃ job ∈ w.jobs, job.unfinished = true ∧ job.attemptsMade ≠ 0 ∧
        ∃ d plan start, Stopped w.db m t job d plan start)

/-- The field edits of the table are the same jobs, but for untried new ones. -/
def SameEdits (tableId : Uuid) (w w' : World) : Prop :=
  ∀ job d, job.data = .fieldEdit d → d.tableId = tableId →
    (job ∈ w.jobs → job ∈ w'.jobs) ∧ (job ∈ w'.jobs → job ∈ w.jobs ∨ job.attemptsMade = 0)

theorem TableState.transport {w w' : World} {tableId : Uuid} (h : TableState w tableId)
    (hu : Untouched tableId w.db w'.db) (hs : SameEdits tableId w w') : TableState w' tableId := by
  intro hlost m hm hid
  have hlost₀ : NoLostSteps w tableId := fun job hjob d hd hdid hst =>
    hlost job ((hs job d hd hdid).1 hjob) d hd hdid hst
  have hm₀ := (hu.registered m hid).mp hm
  obtain ⟨t, ht, hcase⟩ := h hlost₀ m hm₀ hid
  obtain ⟨t', ht', hC⟩ := hu.columns m hm₀ hid t ht
  have hmatch : ∀ C, FieldsMatch w.db.schema w.db.metaTables m.id w.db.metaFields C →
      FieldsMatch w'.db.schema w'.db.metaTables m.id w'.db.metaFields C := by
    intro C hC'
    rw [hu.extend.schema]
    exact hC'.transport hu.extend.metaTables fun f hf => hu.fields f (hf.trans hid)
  refine ⟨t', ht', hcase.imp (fun hset => ?_) fun hstop => ?_⟩
  · refine ⟨by rw [hC]; exact hset.system, by rw [hC]; exact hmatch _ hset.matched, ?_⟩
    intro job hjob d hd hdid hun
    rcases (hs job d hd (hdid.trans hid)).2 hjob with hjob | h0
    · exact hset.untried job hjob d hd hdid hun
    · exact h0
  · obtain ⟨job, hjob, hun, htried, d, plan, start, hst⟩ := hstop
    refine ⟨job, (hs job d hst.data (hst.tableId.trans hid)).1 hjob, hun, htried, d, plan, start, ?_⟩
    have hsch := hu.extend.schema
    exact { hst with
      fits := by rw [hsch]; exact hst.fits
      targets := fun c target required config hp => by
        obtain ⟨x, hx, hxid, hxn⟩ := hst.targets c target required config hp
        obtain ⟨x', hx', hxid', hxn'⟩ := hu.extend.metaTables x hx
        exact ⟨x', hx', hxid'.trans hxid, hxn'.trans hxn⟩
      matched := hmatch start hst.matched
      partway := by rw [hsch, hC]; exact hst.partway
      untouched := fun h0 => by rw [hC]; exact hst.untouched h0 }

/-! ### The table's own create-table job -/

/-- The metadata of `m` describes its table, and the system columns are there. -/
def Matched (db : TenantSchema) (m : MetaTable) : Prop :=
  ∃ t, db.tables.lookup m.name = some t ∧ SystemPresent t.columnMap ∧
    FieldsMatch db.schema db.metaTables m.id db.metaFields t.columnMap

theorem create_matched {pg : Postgres} {tables : Tables} {accepted : DdlJobData → Prop}
    {edited : Uuid → Prop} {db db' : TenantSchema} {d : CreateTableJobData}
    (hd : Distinct accepted) (hc : Catalog accepted db) (ho : Ownership tables accepted edited db)
    (ha : accepted (.createTable d)) (hfree : d.tableName ∉ tables.keys)
    (hne : ¬edited d.tableId) (h₀ : ∀ m ∈ db.metaTables, m.id = d.tableId → Matched db m)
    (h : ReflTransGen (JobWrite pg (.createTable d)) db db') :
    ∀ m ∈ db'.metaTables, m.id = d.tableId → Matched db' m := by
  have hedit : ∀ d', DdlJobData.createTable d = .fieldEdit d' → edited d'.tableId :=
    fun d' he => by cases he
  induction h with
  | refl => exact h₀
  | @tail db₁ db₂ hr hw ih =>
    have hc₁ := hc.written hd ha hr
    have ho₂ := (ho.written hd hc ha hedit hr).write hd hc₁ ha hedit hw
    cases hw with
    | migration => exact ih
    | create hb =>
      have hreg := createTableBody_ok (hd.unreserved _ ha) hb
      intro m hm hid
      have hn : m.name = d.tableName := by
        rcases (hreg.metaTables m).mp hm with rfl | ⟨-, hne'⟩
        · rfl
        · exact absurd hid hne'
      obtain ⟨d', t, hd', hid', hn', ht, hj⟩ := ho₂.owned m hm (by rw [hn]; exact hfree)
      have he := hd.create_inj d' d hd' ha (hid'.symm.trans hid)
      subst he
      have hl := ho₂.layout d' t hd' (by rw [← hn']; exact ht) hj hne
      obtain ⟨db₃, -, hwf⟩ := hreg.fields
      have hmatch : SystemPresent t.columnMap ∧
          FieldsMatch db₂.schema db₂.metaTables d'.tableId db₂.metaFields t.columnMap :=
        match_of_layout hl (ho₂.rows d' hd' hne) (hwf.written hl.names_nodup)
      rw [← hid] at hmatch
      exact ⟨t, ht, hmatch⟩

/-! ### The table's own field edits -/

theorem Job.run_edit (env : Env) {job : Job} (faults : List (Option String)) {db : TenantSchema}
    {d : FieldEditJobData} {g : EditGhost} (hd : job.data = .fieldEdit d)
    (hname : d.tableName = g.name) (hsteps : d.steps = g.plan.flatMap PlannedEdit.steps)
    (hfits : PlanFits g.schema g.start g.plan) (ha : ShadowsApart g.plan)
    (hheld : g.Held (fun _ => True) db 0) :
    ((job.run env faults db).1.state = .completed ∧ ∃ db₁, Finished g db₁ ∧
      d.metadataEffects.foldlM (applyEffect d.tableId) db₁ = .ok (job.run env faults db).2) ∨
    (job.run env faults db).1.state ≠ .completed ∧
      ∃ n, (job.run env faults db).1.committed = job.committed + n ∧
        g.Held (fun _ => True) (job.run env faults db).2 n := by
  have hedit : TxProg.Triple (fun st => g.Held (fun _ => True) st.store st.committed)
      (processFieldEdit env.pg d) (fun _ st => ∃ db, Finished g db ∧
        d.metadataEffects.foldlM (applyEffect d.tableId) db = .ok st.store)
      fun st => g.Held (fun _ => True) st.store st.committed :=
    processFieldEdit_held hname hsteps hfits ha
  have h := hedit { store := db, faults := faults, committed := 0 } hheld
  have hp : process env.pg job.data = processFieldEdit env.pg d := by
    rw [hd]
    rfl
  unfold Job.run
  rw [hp]
  revert h
  cases (processFieldEdit env.pg d).exec { store := db, faults := faults, committed := 0 } with
  | mk r s =>
    cases r with
    | ok a => exact fun h => .inl ⟨rfl, h⟩
    | error e =>
      refine fun h => .inr ⟨?_, s.committed, rfl, h⟩
      dsimp only
      split <;> simp

theorem edit_written_metaTables {pg : Postgres} {accepted : DdlJobData → Prop}
    {db db' : TenantSchema} {d : FieldEditJobData} (hd : Distinct accepted)
    (hc : Catalog accepted db) (ha : accepted (.fieldEdit d))
    (h : ReflTransGen (JobWrite pg (.fieldEdit d)) db db') : db'.metaTables = db.metaTables := by
  induction h with
  | refl => rfl
  | tail hr hw ih =>
    have hc₁ := hc.written hd ha hr
    refine Eq.trans ?_ ih
    cases hw with
    | migration => rfl
    | step _ hs =>
      obtain ⟨m, hm, -, hn⟩ := hc₁.edit_table _ ha
      obtain ⟨t, ht⟩ := hc₁.meta_table m hm
      obtain ⟨t', hch, -⟩ := executeStep_frame (hn ▸ ht) hs
      exact hch.metaTables
    | effects hs => exact (Catalog.applyEffects_frame hs).2.1

theorem Job.finished_of_not_unfinished {job : Job} (hw : job.state ≠ .waiting)
    (hc : job.state ≠ .completed) (h : job.unfinished = false) : job.state = .failed := by
  unfold Job.unfinished at h
  cases hs : job.state with
  | waiting => exact absurd hs hw
  | completed => exact absurd hs hc
  | delayed => simp [hs] at h
  | failed => rfl

section EditAttempt

variable {env : Env} {w : World} {job : Job} {faults : List (Option String)} {d : FieldEditJobData}

/-- Before an attempt of the next job the table is partway through the job's plan:
not at all if it is the first one. -/
theorem stopped_before (ho : InOrder w) (hnext : w.nextJob = some job)
    (hd : job.data = .fieldEdit d) {m : MetaTable} {t : PhysTable} (hid : d.tableId = m.id)
    (hplan : ∃ plan, d.steps = plan.flatMap PlannedEdit.steps ∧
      d.metadataEffects = plan.map PlannedEdit.effect ∧ TargetsKnown w.db.metaTables plan)
    (hfit : job.attemptsMade = 0 → stepsFit w.db.schema t.columnMap d.steps = true ∧
      shadowsApart d.steps = true)
    (h : Settled w m t ∨ ∃ job ∈ w.jobs, job.unfinished = true ∧ job.attemptsMade ≠ 0 ∧
      ∃ d plan start, Stopped w.db m t job d plan start) :
    ∃ plan start, Stopped w.db m t job d plan start := by
  have hmem : job ∈ w.jobs := List.mem_of_find?_eq_some hnext
  have hun := (nextJob_split hnext).1
  rcases h with hset | ⟨job₀, hjob₀, hun₀, htried, d₀, plan, start, hst⟩
  · obtain ⟨plan, hsteps, heffects, htargets⟩ := hplan
    obtain ⟨hf, ha⟩ := hfit (hset.untried job hmem d hd hid hun)
    rw [hsteps] at hf ha
    exact ⟨plan, t.columnMap, hd, hid, hsteps, heffects, planFits_of_stepsFit hf,
      shadowsApart_plan ha, htargets, hset.system, hset.matched, .refl plan t.columnMap,
      fun _ => rfl⟩
  · have he : job₀ = job := by
      by_contra hne
      exact htried (ho.untried hnext hjob₀ hun₀ hne)
    subst he
    have hdd := hst.data.symm.trans hd
    cases hdd
    exact ⟨plan, start, hst⟩

theorem edit_attempt {tableId : Uuid} (hr : Registered w) (ho : InOrder w)
    (hnext : w.nextJob = some job) (hd : job.data = .fieldEdit d) (htid : d.tableId = tableId)
    (hplan : ∃ plan, d.steps = plan.flatMap PlannedEdit.steps ∧
      d.metadataEffects = plan.map PlannedEdit.effect ∧ TargetsKnown w.db.metaTables plan)
    (hfit : job.attemptsMade = 0 → ∀ t, w.db.tables.lookup d.tableName = some t →
      stepsFit w.db.schema t.columnMap d.steps = true ∧ shadowsApart d.steps = true)
    (hstate : TableState w tableId) :
    TableState (w.setJob (job.run env faults w.db).1 (job.run env faults w.db).2) tableId := by
  have ha := Job.run_attempted env job faults w.db
  have hmem : job ∈ w.jobs := List.mem_of_find?_eq_some hnext
  have hun := (nextJob_split hnext).1
  have hacc : w.accepted (.fieldEdit d) := ⟨job, hmem, hd⟩
  have hw := ha.written
  rw [hd] at hw
  have hM := edit_written_metaTables hr.distinct hr.catalog hacc hw
  intro hlost m hm hid
  have hm₀ : m ∈ w.db.metaTables := by
    rw [← hM]
    exact hm
  have hlost₀ : NoLostSteps w tableId := by
    intro k hk dk hdk hidk hst
    refine hlost k ((mem_setJob ha hmem k).mpr (.inr ⟨hk, fun he => ?_⟩)) dk hdk hidk hst
    have hkj := hr.job_eq hmem hk he
    subst hkj
    rw [Job.unfinished, hst] at hun
    cases hun
  obtain ⟨t, ht, hcase⟩ := hstate hlost₀ m hm₀ hid
  have hname : d.tableName = m.name := by
    obtain ⟨m₀, hm₁, hid₀, hn₀⟩ := hr.catalog.edit_table d hacc
    rw [← hn₀]
    exact hr.catalog.name_of_id hr.distinct hm₁ hm₀ (hid₀.trans (htid.trans hid.symm))
  obtain ⟨plan, start, hst⟩ := stopped_before ho hnext hd (htid.trans hid.symm) hplan
    (fun h0 => hfit h0 t (by rw [hname]; exact ht)) hcase
  let g : EditGhost :=
    { name := m.name, schema := w.db.schema, metaTables := w.db.metaTables,
      metaFields := w.db.metaFields, plan := plan, start := start, committed := job.committed }
  have hheld : g.Held (fun _ => True) w.db 0 :=
    ⟨t, ht, rfl, rfl, rfl, hst.partway, fun h0 => hst.untouched h0, trivial⟩
  -- the other unfinished edits of the table wait behind this one
  have hothers : (job.run env faults w.db).1.unfinished = false →
      ∀ k ∈ (w.setJob (job.run env faults w.db).1 (job.run env faults w.db).2).jobs,
        k.unfinished = true → k.attemptsMade = 0 := by
    intro hdone k hk hku
    rcases (mem_setJob ha hmem k).mp hk with rfl | ⟨hk, hne⟩
    · rw [hdone] at hku
      cases hku
    · exact ho.untried hnext hk hku fun he => hne (he ▸ rfl)
  rcases Job.run_edit env faults hd hname hst.steps hst.fits hst.apart hheld with
    ⟨hdone, db₁, hfin, heff⟩ | ⟨hnot, n, hcount, t', ht', -, hF', hS', hp', hc', -⟩
  · obtain ⟨htab, -, -, -⟩ := Catalog.applyEffects_frame heff
    obtain ⟨t₁, ht₁, hcols⟩ := hfin.columns
    have hschema : db₁.schema = w.db.schema := hfin.schema
    rw [hst.effects] at heff
    rw [htid.trans hid.symm] at heff
    have hmatched : FieldsMatch db₁.schema db₁.metaTables m.id db₁.metaFields start := by
      rw [hfin.metaTables, hfin.metaFields, hschema]
      exact hst.matched
    have hmatch := match_plan hst.system hmatched (by rw [hschema]; exact hst.fits)
      (by rw [hfin.metaTables]; exact hst.targets) heff
    rw [hschema] at hmatch
    have hcols' : t₁.columnMap = planColumns w.db.schema start plan := hcols
    rw [← hcols'] at hmatch
    refine ⟨t₁, ?_, .inl ⟨hmatch.1, hmatch.2, fun k hk _ _ _ => hothers ?_ k hk⟩⟩
    · show AList.lookup m.name (job.run env faults w.db).2.tables = some t₁
      rw [htab]
      exact ht₁
    · rw [Job.unfinished, hdone]
      rfl
  · have hmem' := (mem_setJob ha hmem (job.run env faults w.db).1).mpr (.inl rfl)
    have hcommitted : (job.run env faults w.db).1.committed = 0 → t'.columnMap = start :=
      fun h0 => hc' (hcount.symm.trans h0)
    have hmatched : FieldsMatch (job.run env faults w.db).2.schema
        (job.run env faults w.db).2.metaTables m.id (job.run env faults w.db).2.metaFields start := by
      rw [hS', hM, hF']
      exact hst.matched
    by_cases hun' : (job.run env faults w.db).1.unfinished = true
    · have htried : (job.run env faults w.db).1.attemptsMade ≠ 0 := by
        rw [ha.attemptsMade]
        omega
      refine ⟨t', ht', .inr ⟨_, hmem', hun', htried, d, plan, start, ?_⟩⟩
      exact { hst with
        data := ha.data.trans hd
        fits := by
          show PlanFits (job.run env faults w.db).2.schema start plan
          rw [hS']
          exact hst.fits
        targets := by
          show TargetsKnown (job.run env faults w.db).2.metaTables plan
          rw [hM]
          exact hst.targets
        matched := hmatched
        partway := by
          show Partway (job.run env faults w.db).2.schema plan start t'.columnMap
          rw [hS']
          exact hp'
        untouched := hcommitted }
    · -- the job failed for good, so by assumption it committed nothing
      have hun' := Bool.eq_false_of_not_eq_true hun'
      have hfailed := Job.finished_of_not_unfinished ha.state hnot hun'
      have hC := hcommitted (hlost _ hmem' d (ha.data.trans hd) htid hfailed)
      refine ⟨t', ht', .inl ⟨?_, ?_, fun k hk _ _ _ => hothers hun' k hk⟩⟩
      · rw [hC]
        exact hst.system
      · rw [hC]
        exact hmatched

end EditAttempt

/-! ### Runs -/

/-- For the table `tableId`: its create-table job does not take the name of one of
`tables`, and each of its field edits fits the columns it meets at its first
attempt. -/
def EditsFit (env : Env) (tables : Tables) (tableId : Uuid) (w : World) : Event → Prop
  | .createTable dto =>
    ∀ d, enqueueCreateTable env.cfg w.db w.pending w.nextUuid (w.nextUuid + 1) dto = .ok d →
      d.tableId = tableId → d.tableName ∉ tables.keys
  | .attempt jobId _ =>
    ∀ job ∈ w.jobs, job.id = jobId → job.attemptsMade = 0 →
      ∀ d, job.data = .fieldEdit d → d.tableId = tableId →
        ∀ t, w.db.tables.lookup d.tableName = some t →
          stepsFit w.db.schema t.columnMap d.steps = true ∧ shadowsApart d.steps = true
  | _ => True

structure AgreementInvariant (tables : Tables) (tableId : Uuid) (w : World) : Prop where
  ownership : OwnershipInvariant tables w
  order : InOrder w
  free : ∀ d, w.accepted (.createTable d) → d.tableId = tableId → d.tableName ∉ tables.keys
  plans : ∀ d, w.accepted (.fieldEdit d) → ∃ plan, d.steps = plan.flatMap PlannedEdit.steps ∧
    d.metadataEffects = plan.map PlannedEdit.effect ∧ TargetsKnown w.db.metaTables plan
  state : TableState w tableId

namespace AgreementInvariant

variable {env : Env} {tables : Tables} {tableId : Uuid} {w w' : World} {e : Event}

theorem sameEdits_enqueue {data : DdlJobData} {n : ℕ} :
    SameEdits tableId w (w.enqueue data n) := by
  intro job d hd hid
  refine ⟨fun hjob => (mem_enqueue job).mpr (.inl hjob), fun hjob => ?_⟩
  rcases (mem_enqueue job).mp hjob with hjob | rfl
  · exact .inl hjob
  · exact .inr rfl

theorem sameEdits_setJob {job job' : Job} {db' : TenantSchema} (hr : Registered w)
    (ha : Attempted env job w.db job' db') (mem : job ∈ w.jobs)
    (hne : ∀ d, job.data = .fieldEdit d → d.tableId ≠ tableId) :
    SameEdits tableId w (w.setJob job' db') := by
  intro k d hd hid
  refine ⟨fun hk => (mem_setJob ha mem k).mpr (.inr ⟨hk, fun he => ?_⟩), fun hk => ?_⟩
  · have hkj := hr.job_eq mem hk he
    subst hkj
    exact hne d hd hid
  · rcases (mem_setJob ha mem k).mp hk with rfl | ⟨hk, -⟩
    · exact absurd hid (hne d (ha.data.symm.trans hd))
    · exact .inl hk

theorem plans_extend (hi : AgreementInvariant tables tableId w)
    (hx : Extends w.db w'.db) (hacc : ∀ d, w'.accepted (.fieldEdit d) → w.accepted (.fieldEdit d)) :
    ∀ d, w'.accepted (.fieldEdit d) → ∃ plan, d.steps = plan.flatMap PlannedEdit.steps ∧
      d.metadataEffects = plan.map PlannedEdit.effect ∧ TargetsKnown w'.db.metaTables plan := by
  intro d hd
  obtain ⟨plan, hs, he, ht⟩ := hi.plans d (hacc d hd)
  refine ⟨plan, hs, he, fun c target required config hm => ?_⟩
  obtain ⟨m, hm', hid, hn⟩ := ht c target required config hm
  obtain ⟨m', hm'', hid', hn'⟩ := hx.metaTables m hm'
  exact ⟨m', hm'', hid'.trans hid, hn'.trans hn⟩

theorem create_attempt {job : Job} {faults : List (Option String)} {d : CreateTableJobData}
    (hi : AgreementInvariant tables tableId w) (hnext : w.nextJob = some job)
    (hd : job.data = .createTable d) (htid : d.tableId = tableId) :
    TableState (w.setJob (job.run env faults w.db).1 (job.run env faults w.db).2) tableId := by
  have ha := Job.run_attempted env job faults w.db
  have hr := hi.ownership.registered
  have hmem : job ∈ w.jobs := List.mem_of_find?_eq_some hnext
  have hacc : w.accepted (.createTable d) := ⟨job, hmem, hd⟩
  have huntried : ∀ k ∈ w.jobs, ∀ d' : FieldEditJobData, k.data = .fieldEdit d' →
      d'.tableId = d.tableId → k.attemptsMade = 0 :=
    fun k hk d' hd' he => hi.order.edits_untried hnext hd hk hd' he
  have hne : ¬Edited w d.tableId := by
    rintro ⟨k, hk, dk, hdk, hidk, hne⟩
    exact hne (huntried k hk dk hdk hidk)
  have hsame : SameEdits tableId w
      (w.setJob (job.run env faults w.db).1 (job.run env faults w.db).2) :=
    sameEdits_setJob hr ha hmem fun d' hd' => by rw [hd] at hd'; cases hd'
  intro hlost m hm hid
  have hlost₀ : NoLostSteps w tableId := fun k hk dk hdk hidk hst =>
    hlost k ((hsame k dk hdk hidk).1 hk) dk hdk hidk hst
  have hstart : ∀ m ∈ w.db.metaTables, m.id = d.tableId → Matched w.db m := by
    intro m hm hid
    obtain ⟨t, ht, hset | ⟨k, hk, -, htried, dk, plan, start, hst⟩⟩ :=
      hi.state hlost₀ m hm (hid.trans htid)
    · exact ⟨t, ht, hset.system, hset.matched⟩
    · exact absurd (huntried k hk dk hst.data (hst.tableId.trans hid)) htried
  have hw := ha.written
  rw [hd] at hw
  obtain ⟨t, ht, hsys, hmatch⟩ := create_matched hr.distinct hr.catalog hi.ownership.ownership hacc
    (hi.free d hacc htid) hne hstart hw m hm (hid.trans htid.symm)
  refine ⟨t, ht, .inl ⟨hsys, hmatch, fun k hk dk hdk hidk hu => ?_⟩⟩
  rcases (hsame k dk hdk (hidk.trans hid)).2 hk with hk | h0
  · exact huntried k hk dk hdk (hidk.trans (hid.trans htid.symm))
  · exact h0

theorem transition (hi : AgreementInvariant tables tableId w) (hseq : Sequential w e)
    (hok : EditsFit env tables tableId w e) (h : Transition env w e w') :
    AgreementInvariant tables tableId w' := by
  have hr := hi.ownership.registered
  have hown := hi.ownership.transition h
  have hord := hi.order.transition hr hseq h
  have hx := hr.transition_extends h
  cases h with
  | refused _ =>
    exact ⟨hown, hord, hi.free, hi.plans, hi.state.transport (.refl tableId w.db)
      fun _ _ _ _ => ⟨id, .inl⟩⟩
  | @createTable dto d accepted =>
    refine ⟨hown, hord, fun d' hd' hid => ?_, hi.plans_extend hx fun d' hd' => ?_,
      hi.state.transport (.refl tableId w.db) sameEdits_enqueue⟩
    · rcases (accepted_enqueue _).mp hd' with hd' | hd'
      · exact hi.free d' hd' hid
      · cases hd'
        exact hok d accepted hid
    · rcases (accepted_enqueue _).mp hd' with hd' | hd'
      · exact hd'
      · cases hd'
  | @fieldEdit tid dto d accepted =>
    have ha := enqueueFieldEdit_ok accepted
    refine ⟨hown, hord, fun d' hd' hid => ?_, fun d' hd' => ?_,
      hi.state.transport (.refl tableId w.db) (sameEdits_enqueue (n := 1))⟩
    · rcases (accepted_enqueue (n := 1) _).mp hd' with hd' | hd'
      · exact hi.free d' hd' hid
      · cases hd'
    · rcases (accepted_enqueue (n := 1) _).mp hd' with hd' | hd'
      · exact hi.plans d' hd'
      · cases hd'
        obtain ⟨plan, hplan, -⟩ := plan_of_accepted ha
        refine ⟨plan, hplan.steps, hplan.effects, fun c target required config hm => ?_⟩
        exact ⟨target, hplan.targets c target required config hm, rfl, rfl⟩
  | @attempt job₀ faults mem₀ unfinished =>
    obtain ⟨job, hnext, hjid⟩ := hseq
    have mem : job ∈ w.jobs := List.mem_of_find?_eq_some hnext
    have hjob := hr.job_eq mem₀ mem hjid
    subst hjob
    have ha := Job.run_attempted env job faults w.db
    have hacc := funext fun data => propext (accepted_setJob hr ha mem data)
    have hplans := hi.plans_extend hx fun d hd => by
      rw [hacc] at hd
      exact hd
    refine ⟨hown, hord, by rw [hacc]; exact hi.free, hplans, ?_⟩
    by_cases hid : job.data.tableId = tableId
    · cases hd : job.data with
      | createTable d =>
        rw [hd] at hid
        exact hi.create_attempt hnext hd hid
      | fieldEdit d =>
        rw [hd] at hid
        exact edit_attempt hr hi.order hnext hd hid (hi.plans d ⟨job, mem, hd⟩)
          (fun h0 t ht => hok job mem rfl h0 d hd hid t ht) hi.state
    · refine hi.state.transport (.written hr.distinct hr.catalog ⟨job, mem, rfl⟩ hid ha.written)
        (sameEdits_setJob hr ha mem fun d hd he => hid ?_)
      rw [hd]
      exact he
  | createRow hm ht _ =>
    exact ⟨hown, hord, hi.free, hi.plans, hi.state.transport
      (.tableChange (.setTable ht) rfl fun _ _ _ _ => rfl) fun _ _ _ _ => ⟨id, .inl⟩⟩
  | updateRow hm ht _ =>
    exact ⟨hown, hord, hi.free, hi.plans, hi.state.transport
      (.tableChange (.setTable ht) rfl fun _ _ _ _ => rfl) fun _ _ _ _ => ⟨id, .inl⟩⟩

theorem bootstrapped {schema : String}
    (h : ∀ n t, tables.lookup n = some t → t.createdBy = none) :
    AgreementInvariant tables tableId (bootstrapped schema tables) := by
  have hno : ∀ data, ¬(DynamicTables.bootstrapped schema tables).accepted data := by
    rintro data ⟨job, hjob, -⟩
    cases hjob
  refine ⟨.bootstrapped h, .nil, ?_, ?_, fun _ m hm => ?_⟩
  · exact fun d hd => absurd hd (hno _)
  · exact fun d hd => absurd hd (hno _)
  · cases hm

end AgreementInvariant

/-- In a sequential run whose field edits of a table fit it and whose finally failed
field edits of it committed nothing, the metadata of the table describes its
columns whenever no job is unfinished. -/
theorem metadata_agrees {env : Env} {schema : String} {tables : Tables} {w : World} {m : MetaTable}
    (hby : ∀ n t, tables.lookup n = some t → t.createdBy = none)
    (h : Reach (step env) (fun w e => Sequential w e ∧ EditsFit env tables m.id w e)
      (bootstrapped schema tables) w)
    (hm : m ∈ w.db.metaTables) (hlost : NoLostSteps w m.id) (hquiet : w.Quiet) :
    Agrees w.db m := by
  have hi : AgreementInvariant tables m.id w :=
    h.invariant (.bootstrapped hby) fun _ _ _ _ hi hok hs =>
      hi.transition hok.1 hok.2 (transition_of_step hs)
  obtain ⟨t, ht, hset | ⟨job, hjob, hun, -⟩⟩ := hi.state hlost m hm rfl
  · exact ⟨t, ht, hset.matched⟩
  · rw [hquiet job hjob] at hun
    cases hun

/-! ### Concrete runs -/

/-- A sufficient test of `EditsFit` beside no other tables. -/
def editsFitCheck (w : World) : Event → Bool
  | .attempt jobId _ => w.jobs.all fun job => job.id != jobId || job.attemptsMade != 0 ||
    match job.data with
    | .createTable _ => true
    | .fieldEdit d => match w.db.tables.lookup d.tableName with
      | none => true
      | some t => stepsFit w.db.schema t.columnMap d.steps && shadowsApart d.steps
  | _ => true

theorem editsFit_of_check {env : Env} {w : World} {e : Event} (tableId : Uuid)
    (h : editsFitCheck w e = true) : EditsFit env ∅ tableId w e := by
  cases e with
  | createTable dto => exact fun d _ _ => by simp
  | attempt jobId faults =>
    intro job hjob hid h0 d hd _ t ht
    have hc := List.all_eq_true.mp h job hjob
    simp only [hid, h0, hd, ht, bne_self_eq_false, Bool.false_or] at hc
    exact Bool.and_eq_true_iff.mp hc
  | fieldEdit | createRow | updateRow => trivial

/-- A type change whose metadata transaction fails once. -/
def retriedModifyRun : List Event :=
  [.createTable ordersTable, .attempt 0 [], .fieldEdit 1 (modifyField "title" .TEXT),
    .attempt 2 [none, none, none, none, none, none, some "deadlock detected"], .attempt 2 []]

/-- Does the run complete all its jobs? -/
def allCompleted (w : World) : Bool := w.jobs.all fun job => job.state == .completed

theorem metadata_agrees_retried :
    ∃ w, runAll (step plainEnv) (bootstrapped "tenant_a" ∅) retriedModifyRun = some w ∧
      ∀ m ∈ w.db.metaTables, Agrees w.db m := by
  have hrun : ((runChecked (step plainEnv) (fun w e => sequentialCheck w e && editsFitCheck w e)
      (bootstrapped "tenant_a" ∅) retriedModifyRun).any allCompleted) = true := by
    decide +kernel
  obtain ⟨w, hw, hdone⟩ := (Option.any_eq_true _ _).mp hrun
  have hstate : ∀ job ∈ w.jobs, job.state = .completed := by
    intro job hjob
    simpa using List.all_eq_true.mp hdone job hjob
  refine ⟨w, runAll_of_runChecked hw, fun m hm => metadata_agrees (fun n t h => by cases h)
    (.of_runChecked (fun w e h => ?_) hw) hm (fun job hjob _ _ _ hst => ?_) fun job hjob => ?_⟩
  · obtain ⟨hseq, hfit⟩ := Bool.and_eq_true_iff.mp h
    exact ⟨sequential_of_check hseq, editsFit_of_check m.id hfit⟩
  · rw [hstate job hjob] at hst
    cases hst
  · rw [Job.unfinished, hstate job hjob]
    rfl

/-- An edit that adds an optional and then a required field to a table with a row:
the first step is committed, the second cannot be. -/
def lostStepRun : List Event :=
  [.createTable ordersTable, .attempt 0 [],
    .createRow "u1" 1 (.obj [("title", .str "a")]) 20,
    .fieldEdit 1
      { edits := (addField "note" .STRING false).edits ++ (addField "qty" .NUMBER true).edits
        bytes := 90, edits_ne := by simp [addField] },
    .attempt 2 [], .attempt 2 [], .attempt 2 []]

/-- No unfinished job, and a column `note` that no field row declares. -/
def noteLost (w : World) : Bool :=
  w.jobs.all (fun job => !job.unfinished) && w.db.hasColumn "orders" "note" &&
    w.db.metaTables.any (fun m => m.name == "orders") &&
    w.db.metaFields.all fun f => f.slug != "note"

/-- A finally failed job leaves the column of its committed step behind. -/
theorem metadata_disagrees :
    ¬ ∀ (env : Env) (schema : String) (w : World),
      Reach (step env) Sequential (bootstrapped schema ∅) w → w.Quiet →
        ∀ m ∈ w.db.metaTables, Agrees w.db m := by
  intro hall
  have hrun : ((runChecked (step plainEnv) sequentialCheck (bootstrapped "tenant_a" ∅)
      lostStepRun).any noteLost) = true := by
    decide +kernel
  obtain ⟨w, hw, hlost⟩ := (Option.any_eq_true _ _).mp hrun
  simp only [noteLost, Bool.and_eq_true] at hlost
  obtain ⟨⟨⟨hquiet, hcol⟩, htable⟩, hfields⟩ := hlost
  obtain ⟨m, hm, hname⟩ := List.any_eq_true.mp htable
  have hname : m.name = "orders" := by simpa using hname
  have hq : w.Quiet := fun job hjob => by simpa using List.all_eq_true.mp hquiet job hjob
  obtain ⟨t, ht, hmatch⟩ := hall plainEnv "tenant_a" w
    (.of_runChecked (fun _ _ h => sequential_of_check h) hw) hq m hm
  rw [hname] at ht
  rw [hasColumn_of_lookup ht] at hcol
  obtain ⟨d, hd⟩ := Option.isSome_iff_exists.mp hcol
  obtain ⟨f, hf, -, hslug⟩ := hmatch.covered "note" d hd (by decide)
  have hne := List.all_eq_true.mp hfields f hf
  simp [hslug] at hne

end Flexi.DynamicTables
