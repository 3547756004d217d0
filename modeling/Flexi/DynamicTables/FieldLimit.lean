import Flexi.DynamicTables.Agreement
import Flexi.DynamicTables.FieldRows

/-!
# How many fields a table gets

Admission counts the rows of `_meta_fields` and the additions that wait on the queue. A
`modify` edit is no addition, yet its effect is an upsert: it writes a row when its column
has none.
-/

namespace Flexi.DynamicTables
open Flexi.Library Flexi.Tenants Relation

/-- The additions a job reserves on a table. -/
def additionsTo (tableId : Uuid) : DdlJobData → ℕ
  | .fieldEdit job => if job.tableId == tableId then countFieldAdditions job else 0
  | .createTable _ => 0

def Job.reserved (tableId : Uuid) (job : Job) : ℕ :=
  if job.unfinished then additionsTo tableId job.data else 0

/-- What admission adds to the rows it counts. -/
def World.pendingAdditions (w : World) (tableId : Uuid) : ℕ :=
  (w.jobs.map (Job.reserved tableId)).sum

/-! ### Attempts -/

section Attempts

variable {pg : Postgres} {db db' : TenantSchema}

/-- The attempts of a create-table job write rows for its fields only, and all of them
once the table is registered. -/
theorem create_written_slugs {d : CreateTableJobData}
    (hres : d.tableName ∉ [META_TABLES, META_FIELDS, META_MIGRATIONS])
    (h : ReflTransGen (JobWrite pg (.createTable d)) db db') :
    SlugsAdded d.tableId (d.fields.map CreateTableJobField.name) db db' ∧
    (∀ m ∈ db'.metaTables, m.id ≠ d.tableId → m ∈ db.metaTables) ∧
    (db' = db ∨ (∃ rows, db' = { db with metaMigrations := rows }) ∨
      ∀ slug ∈ d.fields.map CreateTableJobField.name, slug ∈ db'.fieldSlugs d.tableId) := by
  induction h with
  | refl => exact ⟨.of_eq rfl, fun _ hm _ => hm, .inl rfl⟩
  | @tail db₁ db₂ _ hw ih =>
    obtain ⟨hadded, hothers, hcase⟩ := ih
    cases hw with
    | @migration _ _ rows =>
      have hsame : SlugsAdded d.tableId [] db₁ { db₁ with metaMigrations := rows } := .of_eq rfl
      refine ⟨(hadded.trans hsame).mono fun slug hs => .inr ?_, hothers, .inr ?_⟩
      · rwa [List.append_nil] at hs
      rcases hcase with rfl | ⟨rows', rfl⟩ | hall
      · exact .inl ⟨rows, rfl⟩
      · exact .inl ⟨rows, rfl⟩
      · exact .inr hall
    | create hb =>
      obtain ⟨hadded', hall⟩ := createTableBody_slugs hb
      refine ⟨(hadded.trans hadded').mono fun slug hs => ?_, fun m hm hne => ?_, .inr (.inr hall)⟩
      · exact .inr ((List.mem_append.mp hs).elim id id)
      · rcases ((createTableBody_ok hres hb).metaTables m).mp hm with rfl | ⟨hm, -⟩
        · exact absurd rfl hne
        · exact hothers m hm hne

/-- A field edit writes its metadata in its last transaction, or not at all. -/
theorem processFieldEdit_fields (d : FieldEditJobData) (rows : List MetaField) :
    TxProg.Triple (fun s => s.store.metaFields = rows) (processFieldEdit pg d)
      (fun _ s => ∃ db, db.metaFields = rows ∧
        d.metadataEffects.foldlM (applyEffect d.tableId) db = .ok s.store)
      fun s => s.store.metaFields = rows := by
  let I : Assertion := fun db _ => db.metaFields = rows
  refine .bind (Q := fun _ (s : TxState TenantSchema) => s.store.metaFields = rows) ?_ fun _ => ?_
  · refine TxProg.Triple.forM (I := fun _ (s : TxState TenantSchema) => s.store.metaFields = rows)
        fun before step after _ => ?_
    have hI : I.Stable := fun _ _ _ h => h
    have hstep : ∀ db db' n, I db n → executeStep pg d.tableName step db = .ok db' →
        I db' (n + 1) :=
      fun db db' n h hs => (executeStep_metadata hs).2.trans h
    exact (recorded_rule hI hI hstep).conseq (fun _ h => h) (fun _ _ h => h) fun _ h => h.elim id id
  · exact .transaction (fun s d' fs hs h => ⟨s.store, hs, h⟩) fun s fs hs => hs

theorem Job.run_fields (env : Env) {job : Job} (faults : List (Option String)) (db : TenantSchema)
    {d : FieldEditJobData} (hd : job.data = .fieldEdit d) :
    ((job.run env faults db).1.state = .completed ∧
      SlugsAdded d.tableId (d.metadataEffects.flatMap FieldMetadataEffect.upserted) db
        (job.run env faults db).2) ∨
    (job.run env faults db).2.metaFields = db.metaFields := by
  have hfields : TxProg.Triple (fun s => s.store.metaFields = db.metaFields)
      (processFieldEdit env.pg d) _ _ :=
    processFieldEdit_fields d db.metaFields
  have h := hfields { store := db, faults := faults, committed := 0 } rfl
  have hp : process env.pg job.data = processFieldEdit env.pg d := by
    rw [hd]
    rfl
  unfold Job.run
  rw [hp]
  revert h
  cases (processFieldEdit env.pg d).exec { store := db, faults := faults, committed := 0 } with
  | mk r s =>
    cases r with
    | ok a =>
      rintro ⟨db₁, h₁, heffects⟩
      have hadded : SlugsAdded d.tableId [] db db₁ := .of_eq h₁
      exact .inl ⟨rfl, (hadded.trans (applyEffects_slugs heffects)).mono fun slug hs =>
          .inr (by simpa using hs)⟩
    | error e => exact .inr

end Attempts

/-! ### Additions and modifications of a job -/

def FieldEditStep.added : FieldEditStep → Option String
  | .addColumn columnName _ _ _ => some columnName
  | .addRelationColumn columnName _ _ => some columnName
  | _ => none

def FieldEditJobData.addedColumns (d : FieldEditJobData) : List String :=
  d.steps.filterMap FieldEditStep.added

theorem addedColumns_length (d : FieldEditJobData) :
    d.addedColumns.length = countFieldAdditions d := by
  have hsome (step : FieldEditStep) : step.added.isSome = step.isAddition := by
    cases step <;> rfl
  rw [FieldEditJobData.addedColumns, List.length_filterMap_eq_countP, countFieldAdditions,
    ← List.countP_eq_length_filter]
  exact List.countP_congr fun step _ => by rw [hsome]

/-- Each `modify` edit of the job names a field that has its row, or that the job adds. -/
def FieldEditJobData.ModifiesDeclared (d : FieldEditJobData) (db : TenantSchema) : Prop :=
  ∀ source shadow final, .cutoverColumn source shadow final ∈ d.steps →
    source ∈ db.fieldSlugs d.tableId ∨ source ∈ d.addedColumns

/-- The job's steps and effects come from a plan. -/
def FieldEditJobData.Planned (d : FieldEditJobData) : Prop :=
  ∃ plan : List PlannedEdit, d.steps = plan.flatMap PlannedEdit.steps ∧
    d.metadataEffects = plan.map PlannedEdit.effect

theorem upserted_declared {d : FieldEditJobData} {db : TenantSchema} (hplan : d.Planned)
    (hmodify : d.ModifiesDeclared db) :
    ∀ slug ∈ d.metadataEffects.flatMap FieldMetadataEffect.upserted,
      slug ∈ db.fieldSlugs d.tableId ∨ slug ∈ d.addedColumns := by
  obtain ⟨plan, hsteps, heffects⟩ := hplan
  intro slug hslug
  rw [heffects, List.flatMap_map, List.mem_flatMap] at hslug
  obtain ⟨p, hp, hslug⟩ := hslug
  have hmem {step : FieldEditStep} (hstep : step ∈ p.steps) : step ∈ d.steps := by
    rw [hsteps]
    exact List.mem_flatMap.mpr ⟨p, hp, hstep⟩
  have hadded {step : FieldEditStep} (hstep : step ∈ p.steps) (hs : step.added = some slug) :
      slug ∈ d.addedColumns :=
    List.mem_filterMap.mpr ⟨step, hmem hstep, hs⟩
  cases p with
  | add c dataType required config typed =>
    cases List.mem_singleton.mp hslug
    exact .inr (hadded List.mem_cons_self rfl)
  | addRelation c target required config =>
    cases List.mem_singleton.mp hslug
    exact .inr (hadded List.mem_cons_self rfl)
  | remove c => cases hslug
  | modify c dataType required config typed =>
    cases List.mem_singleton.mp hslug
    exact hmodify slug _ slug
        (hmem (List.mem_cons_of_mem _ (List.mem_cons_of_mem _ List.mem_cons_self)))

/-! ### Admission -/

theorem enqueueFieldEditWithinLimit_ok {cfg : Config} {w : World} {d : FieldEditJobData}
    (h : enqueueFieldEditWithinLimit cfg w.db w.pending d = .ok ()) : countFieldAdditions d = 0 ∨
      (w.db.fieldSlugs d.tableId).length + w.pendingAdditions d.tableId + countFieldAdditions d ≤
        cfg.DYNAMIC_TABLES_MAX_FIELDS_PER_TABLE := by
  have hpending (f : DdlJobData → ℕ) (hf : ∀ data, f data = additionsTo d.tableId data) :
      (w.pending.map f).sum = w.pendingAdditions d.tableId := by
    rw [World.pending, World.pendingAdditions, List.map_map]
    induction w.jobs with
    | nil => rfl
    | cons job jobs ih =>
      rw [List.filter_cons, List.map_cons, List.sum_cons, Job.reserved]
      split
      · rw [List.map_cons, List.sum_cons, ih, Function.comp, hf]
      · rw [ih, Nat.zero_add]
  unfold enqueueFieldEditWithinLimit at h
  dsimp only at h
  split at h
  · rename_i hzero
    exact .inl hzero
  · split at h
    · cases h
    · rename_i hle
      rw [hpending _ fun data => by cases data <;> rfl] at hle
      right
      rw [TenantSchema.fieldSlugs, List.length_map]
      omega

/-! ### The invariant -/

structure FieldLimit (cfg : Config) (w : World) : Prop where
  keyed : w.db.Keyed
  created : ∀ d, w.accepted (.createTable d) →
      d.fields.length ≤ cfg.DYNAMIC_TABLES_MAX_FIELDS_PER_TABLE
  registered : ∀ d, w.accepted (.createTable d) → (∃ m ∈ w.db.metaTables, m.id = d.tableId) →
    ¬Edited w d.tableId → ∀ slug ∈ d.fields.map CreateTableJobField.name,
        slug ∈ w.db.fieldSlugs d.tableId
  planned : ∀ d, w.accepted (.fieldEdit d) → d.Planned
  within : ∀ tableId, (w.db.fieldSlugs tableId).length + w.pendingAdditions tableId ≤
    cfg.DYNAMIC_TABLES_MAX_FIELDS_PER_TABLE

theorem pendingAdditions_setJob {w : World} {job job' : Job} (db' : TenantSchema)
    (hr : Registered w)
    (mem : job ∈ w.jobs) (hid : job'.id = job.id) (tableId : Uuid) :
    (w.setJob job' db').pendingAdditions tableId + job.reserved tableId =
      w.pendingAdditions tableId + job'.reserved tableId := by
  have hnodup := hr.id_nodup
  show ((w.jobs.map fun k => if k.id == job'.id then job' else k).map _).sum
      + _ = (w.jobs.map _).sum + _
  generalize w.jobs = jobs at mem hnodup
  induction jobs with
  | nil => cases mem
  | cons k jobs ih =>
    rw [List.map_cons, List.nodup_cons] at hnodup
    simp only [List.map_cons, List.sum_cons]
    rcases List.mem_cons.mp mem with rfl | hmem
    · have hrest : (jobs.map fun k => if k.id == job'.id then job' else k) = jobs.map id := by
        refine List.map_congr_left fun k hk => if_neg fun he => hnodup.1 ?_
        have he : k.id = job.id := (beq_iff_eq.mp he).trans hid
        exact List.mem_map.mpr ⟨k, hk, he⟩
      rw [hrest, List.map_id, hid]
      simp only [BEq.rfl, if_true]
      omega
    · have hne : k.id ≠ job'.id := by
        rintro he
        exact hnodup.1 (List.mem_map.mpr ⟨job, hmem, (he.trans hid).symm⟩)
      have htail := ih hmem hnodup.2
      simp only [beq_eq_false_iff_ne.mpr hne, Bool.false_eq_true, if_false]
      omega

/-- Each attempt of a field edit finds the fields that it modifies declared. -/
def ModifiesDeclared (w : World) : Event → Prop
  | .attempt jobId _ => ∀ job ∈ w.jobs, job.id = jobId → ∀ d, job.data = .fieldEdit d →
      d.ModifiesDeclared w.db
  | _ => True

namespace FieldLimit

variable {env : Env} {tables : Tables} {w w' : World} {e : Event}

theorem bootstrapped {cfg : Config} {schema : String} :
    FieldLimit cfg (bootstrapped schema tables) where
  keyed _ := List.nodup_nil
  created d h := by
    obtain ⟨job, hjob, -⟩ := h
    cases hjob
  registered d h := by
    obtain ⟨job, hjob, -⟩ := h
    cases hjob
  planned d h := by
    obtain ⟨job, hjob, -⟩ := h
    cases hjob
  within _ := Nat.zero_le _

theorem fields_length {cfg : Config} {pending : List DdlJobData} {jobId tableId : Uuid}
    {dto : CreateTableDto} {d : CreateTableJobData} {db : TenantSchema}
    (h : enqueueCreateTable cfg db pending jobId tableId dto = .ok d) :
    d.fields.length ≤ cfg.DYNAMIC_TABLES_MAX_FIELDS_PER_TABLE := by
  have hlength := (enqueueCreateTable_ok h).fields.length_eq
  unfold enqueueCreateTable at h
  obtain ⟨-, -, h⟩ := except_bind_ok.mp h
  obtain ⟨u, hcount, -⟩ := except_bind_ok.mp h
  unfold assertFieldDefinitionCount at hcount
  split at hcount
  · cases hcount
  · omega

theorem within_limit {cfg : Config} {pending : List DdlJobData} {jobId tableId : Uuid}
    {dto : UpdateFieldDto} {d : FieldEditJobData} {db : TenantSchema}
    (h : enqueueFieldEdit cfg db pending jobId tableId dto = .ok d) :
    enqueueFieldEditWithinLimit cfg db pending d = .ok () := by
  unfold enqueueFieldEdit at h
  obtain ⟨-, -, h⟩ := except_bind_ok.mp h
  obtain ⟨m, -, h⟩ := except_bind_ok.mp h
  obtain ⟨built, -, h⟩ := except_bind_ok.mp h
  obtain ⟨u, hlimit, h⟩ := except_bind_ok.mp h
  cases h
  exact hlimit

theorem pendingAdditions_enqueue (data : DdlJobData) (n : ℕ) (tableId : Uuid) :
    (w.enqueue data n).pendingAdditions tableId = w.pendingAdditions tableId
        + additionsTo tableId data := by
  simp [World.pendingAdditions, World.enqueue, Job.reserved, Job.unfinished]

theorem enqueue {cfg : Config} (hl : FieldLimit cfg w) {data : DdlJobData} {n : ℕ}
    (hcreate : ∀ d, data = .createTable d →
    d.fields.length ≤ cfg.DYNAMIC_TABLES_MAX_FIELDS_PER_TABLE ∧
      ∀ m ∈ w.db.metaTables, m.id ≠ d.tableId)
    (hedit : ∀ d, data = .fieldEdit d → d.Planned)
    (hroom : ∀ tableId, (w.db.fieldSlugs tableId).length + w.pendingAdditions tableId +
      additionsTo tableId data ≤ cfg.DYNAMIC_TABLES_MAX_FIELDS_PER_TABLE) :
    FieldLimit cfg (w.enqueue data n) where
  keyed := hl.keyed
  created d hd := by
    rcases (accepted_enqueue _).mp hd with hd | rfl
    · exact hl.created d hd
    · exact (hcreate d rfl).1
  registered d hd hm hne := by
    rcases (accepted_enqueue _).mp hd with hd | rfl
    · exact hl.registered d hd hm fun he => hne (edited_enqueue.mpr he)
    · obtain ⟨m, hm, hid⟩ := hm
      exact absurd hid ((hcreate d rfl).2 m hm)
  planned d hd := by
    rcases (accepted_enqueue _).mp hd with hd | rfl
    · exact hl.planned d hd
    · exact hedit d rfl
  within tableId := by
    rw [pendingAdditions_enqueue]
    have hle := hroom tableId
    show (w.db.fieldSlugs tableId).length + _ ≤ _
    omega

theorem of_db {cfg : Config} (hl : FieldLimit cfg w) {db' : TenantSchema}
    {cache : ValidationSchemaCache}
    (hfields : db'.metaFields = w.db.metaFields) (htables : db'.metaTables = w.db.metaTables) :
    FieldLimit cfg { w with db := db', cache := cache } := by
  have hslugs (tableId : Uuid) : db'.fieldSlugs tableId = w.db.fieldSlugs tableId :=
    fieldSlugs_of_eq hfields tableId
  refine ⟨fun tableId => ?_, hl.created, fun d hd hm hne => ?_, hl.planned, fun tableId => ?_⟩
  · rw [hslugs]
    exact hl.keyed tableId
  · rw [hslugs]
    rw [htables] at hm
    exact hl.registered d hd hm hne
  · rw [hslugs]
    exact hl.within tableId

theorem reserved_attempted {job job' : Job} {db' : TenantSchema}
    (ha : Attempted env job w.db job' db')
    (hun : job.unfinished = true) (tableId : Uuid) :
    job'.reserved tableId ≤ job.reserved tableId := by
  rw [Job.reserved, Job.reserved, if_pos hun, ha.data]
  split
  · exact le_rfl
  · exact Nat.zero_le _

theorem create_attempt {job job' : Job} {db' : TenantSchema} {d : CreateTableJobData}
    (hl : FieldLimit env.cfg w) (hr : Registered w) (ho : InOrder w) (hnext : w.nextJob = some job)
    (hd : job.data = .createTable d) (ha : Attempted env job w.db job' db') :
    FieldLimit env.cfg (w.setJob job' db') := by
  have mem : job ∈ w.jobs := List.mem_of_find?_eq_some hnext
  have hun : job.unfinished = true := (nextJob_split hnext).1
  have hacc (data : DdlJobData) := accepted_setJob hr ha mem data
  have hdacc : w.accepted (.createTable d) := ⟨job, mem, hd⟩
  have hwritten := ha.written
  rw [hd] at hwritten
  obtain ⟨hadded, hothers, hcase⟩ := create_written_slugs (hr.distinct.unreserved d hdacc) hwritten
  have hunedited : ¬Edited w d.tableId := by
    rintro ⟨k, hk, d', hd', hid, hne⟩
    exact hne (ho.edits_untried hnext hd hk hd' hid)
  have hpending (tableId : Uuid) : (w.setJob job' db').pendingAdditions tableId ≤
      w.pendingAdditions tableId := by
    have hsum := pendingAdditions_setJob db' hr mem ha.id tableId
    have hle := reserved_attempted ha hun tableId
    omega
  refine ⟨hadded.keyed hl.keyed, fun d' hd' => hl.created d' ((hacc _).mp hd'), ?_,
    fun d' hd' => hl.planned d' ((hacc _).mp hd'), fun tableId => ?_⟩
  · intro d' hd' hm hne
    have hd' := (hacc _).mp hd'
    have hne' : ¬Edited w d'.tableId := fun he => hne (edited_setJob hr ha mem he)
    by_cases hid : d'.tableId = d.tableId
    · cases hr.distinct.create_inj d' d hd' hdacc hid
      rcases hcase with rfl | ⟨rows, rfl⟩ | hall
      · exact hl.registered d hdacc hm hne'
      · exact hl.registered d hdacc hm hne'
      · exact hall
    · obtain ⟨m, hm, hmid⟩ := hm
      show ∀ slug ∈ _, slug ∈ db'.fieldSlugs d'.tableId
      rw [hadded.others _ hid]
      exact hl.registered d' hd' ⟨m, hothers m hm (hmid ▸ hid), hmid⟩ hne'
  · have hle := hl.within tableId
    have hless := hpending tableId
    show (db'.fieldSlugs tableId).length + _ ≤ _
    by_cases ht : tableId = d.tableId
    · subst ht
      by_cases hreg : ∃ m ∈ w.db.metaTables, m.id = d.tableId
      · -- every field has its row already
        have hsame : SlugsAdded d.tableId [] w.db db' :=
          hadded.mono fun slug hs => .inl (hl.registered d hdacc hreg hunedited slug hs)
        have hlength := hsame.length_le hl.keyed
        rw [List.length_nil] at hlength
        omega
      · have hnone : w.db.fieldSlugs d.tableId = [] := by
          refine List.eq_nil_iff_forall_not_mem.mpr fun slug hs => ?_
          obtain ⟨f, hf, hid, -⟩ := mem_fieldSlugs.mp hs
          obtain ⟨m, hm, hmid⟩ := hr.catalog.field_table f hf
          exact hreg ⟨m, hm, hmid.trans hid⟩
        have hzero : w.pendingAdditions d.tableId = 0 := by
          refine List.sum_eq_zero fun n hn => ?_
          obtain ⟨k, hk, rfl⟩ := List.mem_map.mp hn
          rw [Job.reserved]
          split
          · cases hk' : k.data with
            | createTable d' => rfl
            | fieldEdit d' =>
              obtain ⟨m, hm, hmid, -⟩ := hr.catalog.edit_table d' ⟨k, hk, hk'⟩
              refine if_neg fun he => hreg ⟨m, hm, hmid.trans (beq_iff_eq.mp he)⟩
          · rfl
        have hlength := hadded.length_le hl.keyed
        have hfields := hl.created d hdacc
        rw [hnone, List.length_map, List.length_nil] at hlength
        omega
    · rw [hadded.others tableId ht]
      omega

theorem edit_attempt {job : Job} {faults : List (Option String)} {d : FieldEditJobData}
    (hl : FieldLimit env.cfg w) (hr : Registered w) (mem : job ∈ w.jobs)
    (hun : job.unfinished = true)
    (hd : job.data = .fieldEdit d) (hmodify : d.ModifiesDeclared w.db) :
    FieldLimit env.cfg (w.setJob (job.run env faults w.db).1 (job.run env faults w.db).2) := by
  have ha := Job.run_attempted env job faults w.db
  have hcase := Job.run_fields env faults w.db hd
  revert ha hcase
  generalize (job.run env faults w.db).1 = job'
  generalize (job.run env faults w.db).2 = db'
  intro ha hcase
  have hacc (data : DdlJobData) := accepted_setJob hr ha mem data
  have hdacc : w.accepted (.fieldEdit d) := ⟨job, mem, hd⟩
  have hwritten := ha.written
  rw [hd] at hwritten
  have hadded : SlugsAdded d.tableId d.addedColumns w.db db' := by
    rcases hcase with ⟨-, hadded⟩ | hsame
    · exact hadded.mono (upserted_declared (hl.planned d hdacc) hmodify)
    · exact .of_eq hsame
  have hsum (tableId : Uuid) := pendingAdditions_setJob db' hr mem ha.id tableId
  have hless (tableId : Uuid) := reserved_attempted ha hun tableId
  refine ⟨hadded.keyed hl.keyed, fun d' hd' =>
      hl.created d' ((hacc _).mp hd'), fun d' hd' hm hne => ?_,
    fun d' hd' => hl.planned d' ((hacc _).mp hd'), fun tableId => ?_⟩
  · have hid : d'.tableId ≠ d.tableId := fun he => hne (he ▸ edited_attempted ha mem hd)
    show ∀ slug ∈ _, slug ∈ db'.fieldSlugs d'.tableId
    rw [hadded.others _ hid]
    obtain ⟨m, hm, hmid⟩ := hm
    have hm' : m ∈ w.db.metaTables := by
      rwa [show (w.setJob job' db').db.metaTables = w.db.metaTables from
        edit_written_metaTables hr.distinct hr.catalog hdacc hwritten] at hm
    exact hl.registered d' ((hacc _).mp hd') ⟨m, hm', hmid⟩ fun he =>
        hne (edited_setJob hr ha mem he)
  · show (db'.fieldSlugs tableId).length + _ ≤ _
    have hle := hl.within tableId
    have hsum := hsum tableId
    have hless := hless tableId
    by_cases ht : tableId = d.tableId
    · subst ht
      rcases hcase with ⟨hdone, -⟩ | hsame
      · -- the rows it adds were reserved, and the reservation is gone
        have hlength := hadded.length_le hl.keyed
        have hreserved : job.reserved d.tableId = countFieldAdditions d := by
          rw [Job.reserved, if_pos hun, hd, additionsTo]
          exact if_pos BEq.rfl
        have hfree : job'.reserved d.tableId = 0 := by
          rw [Job.reserved, Job.unfinished, hdone]
          rfl
        rw [addedColumns_length] at hlength
        omega
      · rw [fieldSlugs_of_eq hsame]
        omega
    · rw [hadded.others tableId ht]
      omega

theorem transition (hl : FieldLimit env.cfg w) (hr : Registered w) (ho : InOrder w)
    (hseq : Sequential w e) (hmodify : ModifiesDeclared w e) (h : Transition env w e w') :
    FieldLimit env.cfg w' := by
  cases h with
  | refused _ => exact hl.of_db rfl rfl
  | @createTable dto d accepted =>
    refine hl.enqueue (fun d' hd' => ?_) (fun d' hd' => by cases hd') fun tableId => ?_
    · cases hd'
      refine ⟨fields_length accepted, fun m hm hid => ?_⟩
      have hlt := hr.metaTable_id_lt hm
      rw [hid, (enqueueCreateTable_ok accepted).tableId] at hlt
      exact Nat.not_succ_lt_self hlt
    · exact hl.within tableId
  | @fieldEdit tableId dto d accepted =>
    have hplanned : d.Planned := by
      obtain ⟨plan, hplan, -⟩ := plan_of_accepted (enqueueFieldEdit_ok accepted)
      exact ⟨plan, hplan.steps, hplan.effects⟩
    have hl' : FieldLimit env.cfg (w.enqueue (.fieldEdit d) 1) := by
      refine hl.enqueue (fun d' hd' => by cases hd') (fun d' hd' => ?_) fun other => ?_
      · cases hd'
        exact hplanned
      · have hle := hl.within other
        rw [additionsTo]
        split
        · rename_i hother
          cases beq_iff_eq.mp hother
          rcases enqueueFieldEditWithinLimit_ok (within_limit accepted) with hzero | hroom <;> omega
        · exact hle
    exact hl'.of_db rfl rfl
  | @attempt job faults mem unfinished =>
    cases hd : job.data with
    | createTable d =>
      obtain ⟨job₀, hnext, hid⟩ := hseq
      have hjob : job₀ = job := hr.job_eq mem (List.mem_of_find?_eq_some hnext) hid
      rw [hjob] at hnext
      exact hl.create_attempt hr ho hnext hd (Job.run_attempted env job faults w.db)
    | fieldEdit d => exact hl.edit_attempt hr mem unfinished hd (hmodify job mem rfl d hd)
  | createRow hm ht _ => exact hl.of_db rfl rfl
  | updateRow hm ht _ => exact hl.of_db rfl rfl

end FieldLimit

/-- In a sequential run whose field edits modify declared fields only, no table has more
rows in `_meta_fields` than the limit. -/
theorem fields_within_limit {env : Env} {schema : String} {rows : String → List Row} {w : World}
    (h : Reach (step env) (fun w e => Sequential w e ∧ ModifiesDeclared w e)
      (provisioned schema rows) w) (tableId : Uuid) :
    (w.db.metaFields.filter fun f => f.tableId == tableId).length ≤
      env.cfg.DYNAMIC_TABLES_MAX_FIELDS_PER_TABLE := by
  have hby : ∀ n t, (seedTables schema rows).lookup n = some t → t.createdBy = none :=
    fun n t h => seedTables_createdBy h
  have hl : FieldLimit env.cfg w := h.invariant .bootstrapped fun w w' e hreach hl hok hs =>
    hl.transition (registered_reach hby hreach) (inOrder_reach hby (fun _ _ hk => hk.1) hreach)
      hok.1 hok.2 (transition_of_step hs)
  have hle := hl.within tableId
  rw [TenantSchema.fieldSlugs, List.length_map] at hle
  omega

/-! ### Two fields at most -/

def twoFields : Env := { plainEnv with cfg := { DYNAMIC_TABLES_MAX_FIELDS_PER_TABLE := 2 } }

/-- Every column a job modifies has its row. -/
def modifiesDeclared (w : World) : Event → Bool
  | .attempt jobId _ => w.jobs.all fun job => job.id != jobId || match job.data with
    | .createTable _ => true
    | .fieldEdit d => d.steps.all fun step => match step with
      | .cutoverColumn source _ _ => (w.db.fieldSlugs d.tableId).contains source
      | _ => true
  | _ => true

theorem modifiesDeclared.condition {w : World} {e : Event} (h : modifiesDeclared w e = true) :
    ModifiesDeclared w e := by
  cases e with
  | attempt jobId faults =>
    intro job hjob hid d hd source shadow final hstep
    have hjob' := List.all_eq_true.mp h job hjob
    simp only [hid, hd, bne_self_eq_false, Bool.false_or] at hjob'
    exact .inl (List.contains_iff_mem.mp (List.all_eq_true.mp hjob' _ hstep))
  | createTable | fieldEdit | createRow | updateRow => trivial

/-- A second field, and a type change of the first. -/
def twoFieldsRun : List Event :=
  [.createTable ordersTable, .attempt 0 [], .fieldEdit 1 (addField "note" .STRING false),
      .attempt 2 [],
    .fieldEdit 1 (modifyField "title" .TEXT), .attempt 3 []]

theorem fields_within_limit_two : ∃ w, runAll (step twoFields)
    (provisioned "tenant_a" fun _ => []) twoFieldsRun = some w ∧
    (w.db.metaFields.filter fun f => f.tableId == 1).length = 2 ∧
    ∀ tableId, (w.db.metaFields.filter fun f => f.tableId == tableId).length ≤ 2 := by
  have hrun : ((runChecked (step twoFields) (fun w e => sequentialCheck w e && modifiesDeclared w e)
      (provisioned "tenant_a" fun _ => []) twoFieldsRun).any fun w =>
        (w.db.metaFields.filter fun f => f.tableId == 1).length == 2) = true := by
    decide +kernel
  obtain ⟨w, hw, htwo⟩ := (Option.any_eq_true _ _).mp hrun
  have hr : Reach (step twoFields) (fun w e => Sequential w e ∧ ModifiesDeclared w e)
      (provisioned "tenant_a" fun _ => []) w := by
    refine .of_runChecked (fun w e h => ?_) hw
    obtain ⟨hseq, hmodify⟩ := Bool.and_eq_true_iff.mp h
    exact ⟨sequential_of_check hseq, modifiesDeclared.condition hmodify⟩
  exact ⟨w, runAll_of_runChecked hw, beq_iff_eq.mp htwo, fields_within_limit hr⟩

/-- A `modify` edit of the system column `created_at` writes a third row. -/
theorem modify_exceeds_limit : ¬ ∀ (env : Env) (schema : String) (rows : String → List Row)
    (w : World),
    Reach (step env) Sequential (provisioned schema rows) w → ∀ tableId,
      (w.db.metaFields.filter fun f => f.tableId == tableId).length ≤
        env.cfg.DYNAMIC_TABLES_MAX_FIELDS_PER_TABLE := by
  intro hall
  have hrun : ((runChecked (step twoFields) sequentialCheck (provisioned "tenant_a" fun _ => [])
      (twoFieldsRun ++ [.fieldEdit 1 (modifyField "created_at" .DATETIME), .attempt 4 []])).any
          fun w =>
        (w.db.metaFields.filter fun f => f.tableId == 1).length == 3) = true := by
    decide +kernel
  obtain ⟨w, hw, hthree⟩ := (Option.any_eq_true _ _).mp hrun
  have hle := hall twoFields "tenant_a" (fun _ => []) w
    (.of_runChecked (fun _ _ h => sequential_of_check h) hw) 1
  rw [beq_iff_eq.mp hthree] at hle
  exact absurd hle (by decide)

end Flexi.DynamicTables
