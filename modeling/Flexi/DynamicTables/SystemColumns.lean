import Flexi.DynamicTables.EditPlan
import Flexi.DynamicTables.TableLayout

/-!
# System columns

Nothing in the service or the worker keeps a field edit away from `id`,
`owner_user_id`, `created_at` and `updated_at`. As long as no accepted edit
names one of them, they keep their definitions, stay out of the metadata, and
every row keeps its id and its owner.
-/

namespace Flexi.DynamicTables
open Flexi.Library Relation

/-- Some create-table job made the table `name`. -/
def Created (db : TenantSchema) (name : String) : Prop :=
  ∃ t j, db.tables.lookup name = some t ∧ t.createdBy = some j

/-- Definitions and metadata of every created table leave the system columns
alone. -/
structure SystemColumnsIntact (db : TenantSchema) : Prop where
  columns : ∀ n t j, db.tables.lookup n = some t → t.createdBy = some j →
    ∀ c ∈ systemColumnDefs, t.columns.lookup c.1 = some c.2
  fields : ∀ m ∈ db.metaTables, Created db m.name → ∀ f ∈ db.metaFields, f.tableId = m.id →
    f.slug ∉ systemColumns

/-- Every row of every created table is still there with its id and owner. -/
def RowsKept (db db' : TenantSchema) : Prop :=
  ∀ n t j, db.tables.lookup n = some t → t.createdBy = some j →
    ∃ t', db'.tables.lookup n = some t' ∧ t'.createdBy = some j ∧
      ∀ (i : ℕ) (r : Row), t.rows[i]? = some r →
        ∃ r', t'.rows[i]? = some r' ∧ ∀ c ∈ ["id", OWNER_COLUMN], r' c = r c

/-- No accepted field edit on a created table names a system column. -/
def NoSystemEdit (env : Env) (w : World) : Event → Prop
  | .fieldEdit tableId dto =>
    ∀ d, enqueueFieldEdit env.cfg w.db w.pending w.nextUuid tableId dto = .ok d →
      Created w.db d.tableName → ∀ edit ∈ dto.edits, edit.name ∉ systemColumns
  | _ => True

/-! ### Rows -/

theorem key_or_owner_system {c : String} (h : c ∈ ["id", OWNER_COLUMN]) : c ∈ systemColumns := by
  simp only [List.mem_cons, List.not_mem_nil, or_false] at h
  rcases h with rfl | rfl
  · exact List.mem_cons_self
  · exact List.mem_cons_of_mem _ List.mem_cons_self

theorem forall₂_getElem? {α β : Type} {R : α → β → Prop} {xs : List α} {ys : List β}
    (h : List.Forall₂ R xs ys) {i : ℕ} {x : α} (hx : xs[i]? = some x) :
    ∃ y, ys[i]? = some y ∧ R x y := by
  induction h generalizing i with
  | nil => simp at hx
  | cons hr _ ih =>
    cases i with
    | zero =>
      simp only [List.getElem?_cons_zero, Option.some.injEq] at hx
      subst hx
      exact ⟨_, rfl, hr⟩
    | succ i => exact ih hx

namespace RowsKept

variable {db db' db'' : TenantSchema}

theorem of_lookup (h : ∀ n t, db.tables.lookup n = some t → db'.tables.lookup n = some t) :
    RowsKept db db' :=
  fun n t _ ht hj => ⟨t, h n t ht, hj, fun _ r hr => ⟨r, hr, fun _ _ => rfl⟩⟩

theorem refl (db : TenantSchema) : RowsKept db db := .of_lookup fun _ _ ht => ht

theorem trans (h : RowsKept db db') (h' : RowsKept db' db'') : RowsKept db db'' := by
  intro n t j ht hj
  obtain ⟨t', ht', hj', hr⟩ := h n t j ht hj
  obtain ⟨t'', ht'', hj'', hr'⟩ := h' n t' j ht' hj'
  refine ⟨t'', ht'', hj'', fun i r hi => ?_⟩
  obtain ⟨r', hi', hc⟩ := hr i r hi
  obtain ⟨r'', hi'', hc'⟩ := hr' i r' hi'
  exact ⟨r'', hi'', fun c hm => (hc' c hm).trans (hc c hm)⟩

theorem tableChange {name : String} {t t' : PhysTable} (h : TableChange name t t' db db')
    (hby : t'.createdBy = t.createdBy)
    (hrows : Created db name → ∀ (i : ℕ) (r : Row), t.rows[i]? = some r →
      ∃ r', t'.rows[i]? = some r' ∧ ∀ c ∈ ["id", OWNER_COLUMN], r' c = r c) :
    RowsKept db db' := by
  intro n u j hu hj
  by_cases hn : n = name
  · subst hn
    have hut : u = t := Option.some.inj (hu.symm.trans h.before)
    subst hut
    exact ⟨t', h.after, hby.trans hj, hrows ⟨u, j, h.before, hj⟩⟩
  · exact ⟨u, by rw [h.others n hn]; exact hu, hj, fun i r hr => ⟨r, hr, fun _ _ => rfl⟩⟩

end RowsKept

/-! ### Jobs that stay away from the system columns -/

/-- The job was planned from edits of other columns. -/
def AvoidsSystem (d : FieldEditJobData) : Prop :=
  ∃ plan : List PlannedEdit, d.steps = plan.flatMap PlannedEdit.steps ∧
    d.metadataEffects = plan.map PlannedEdit.effect ∧ ∀ p ∈ plan, p.column ∉ systemColumns

theorem written_not_system {p : PlannedEdit} (h : p.column ∉ systemColumns) :
    ∀ c ∈ p.written, c ∉ systemColumns := by
  intro c hc
  cases p with
  | add | addRelation | remove =>
    simp only [PlannedEdit.written, List.mem_singleton] at hc
    rw [hc]
    exact h
  | modify c' _ _ _ _ =>
    simp only [PlannedEdit.written, List.mem_cons, List.not_mem_nil, or_false] at hc
    rcases hc with rfl | rfl
    · exact h
    · exact shadow_not_system c'

theorem AvoidsSystem.step {d : FieldEditJobData} (h : AvoidsSystem d) {s : FieldEditStep}
    (hs : s ∈ d.steps) : ∀ c ∈ s.written, c ∉ systemColumns := by
  obtain ⟨plan, hsteps, -, hcols⟩ := h
  rw [hsteps, List.mem_flatMap] at hs
  obtain ⟨p, hp, hs⟩ := hs
  exact fun c hc => written_not_system (hcols p hp) c (PlannedEdit.steps_written hs hc)

/-- The slug under which an effect registers a field. -/
def FieldMetadataEffect.declares : FieldMetadataEffect → List String
  | .upsertField _ slug _ _ _ _ => [slug]
  | .removeField _ => []

theorem AvoidsSystem.effect {d : FieldEditJobData} (h : AvoidsSystem d) {e : FieldMetadataEffect}
    (he : e ∈ d.metadataEffects) : ∀ c ∈ e.declares, c ∉ systemColumns := by
  obtain ⟨plan, -, heffects, hcols⟩ := h
  rw [heffects, List.mem_map] at he
  obtain ⟨p, hp, rfl⟩ := he
  intro c hc
  have hcol : c = p.column := by
    cases p <;> simp_all [PlannedEdit.effect, FieldMetadataEffect.declares, PlannedEdit.column]
  rw [hcol]
  exact hcols p hp

/-! ### The invariant of the schema -/

structure SystemSafe (accepted : DdlJobData → Prop) (db : TenantSchema) : Prop where
  intact : SystemColumnsIntact db
  edits : ∀ d, accepted (.fieldEdit d) → Created db d.tableName → AvoidsSystem d
  creates : ∀ d, accepted (.createTable d) →
    (∃ t, db.tables.lookup d.tableName = some t ∧ t.createdBy = some d.jobId) →
      ∀ field ∈ d.fields, field.name ∉ systemColumns

theorem Created.back {db db' : TenantSchema} (h : Extends db db') {n : String} {t : PhysTable}
    (ht : db.tables.lookup n = some t) (hn : Created db' n) : Created db n := by
  obtain ⟨t', ht', hby⟩ := h.tables n t ht
  obtain ⟨u, j, hu, hj⟩ := hn
  have hut : u = t' := Option.some.inj (hu.symm.trans ht')
  exact ⟨t, j, ht, by rw [← hby, ← hut, hj]⟩

namespace SystemSafe

variable {pg : Postgres} {accepted : DdlJobData → Prop} {db db' : TenantSchema}

theorem edits_extend (hc : Catalog accepted db) (hs : SystemSafe accepted db)
    (hx : Extends db db') :
    ∀ d, accepted (.fieldEdit d) → Created db' d.tableName → AvoidsSystem d := by
  intro d hd hcr
  obtain ⟨m, hm, -, hn⟩ := hc.edit_table d hd
  obtain ⟨t, ht⟩ := hc.meta_table m hm
  rw [hn] at ht
  exact hs.edits d hd (hcr.back hx ht)

theorem tableChange {name : String} {t t' : PhysTable} (hc : Catalog accepted db)
    (hs : SystemSafe accepted db) (h : TableChange name t t' db db')
    (hby : t'.createdBy = t.createdBy)
    (hcols : Created db name → ∀ c ∈ systemColumns, t'.columns.lookup c = t.columns.lookup c) :
    SystemSafe accepted db' := by
  have hx := Extends.tableChange h hby
  refine ⟨⟨?_, ?_⟩, hs.edits_extend hc hx, ?_⟩
  · intro n u j hu hj c hm
    by_cases hn : n = name
    · subst hn
      have hut : u = t' := Option.some.inj (hu.symm.trans h.after)
      subst hut
      have hj' := hby.symm.trans hj
      rw [hcols ⟨t, j, h.before, hj'⟩ c.1 ((mem_systemColumns c.1).mpr ⟨c.2, hm⟩)]
      exact hs.intact.columns n t j h.before hj' c hm
    · rw [h.others n hn] at hu
      exact hs.intact.columns n u j hu hj c hm
  · intro m hm hcr f hf hid
    rw [h.metaTables] at hm
    rw [h.metaFields] at hf
    obtain ⟨u, hu⟩ := hc.meta_table m hm
    exact hs.intact.fields m hm (hcr.back hx hu) f hf hid
  · rintro d hd ⟨u, hu, hj⟩
    by_cases hn : d.tableName = name
    · rw [hn] at hu
      have hut : u = t' := Option.some.inj (hu.symm.trans h.after)
      rw [hut, hby] at hj
      exact hs.creates d hd ⟨t, by rw [hn]; exact h.before, hj⟩
    · rw [h.others _ hn] at hu
      exact hs.creates d hd ⟨u, hu, hj⟩

theorem tableRegistered {d : CreateTableJobData} (hd : Distinct accepted) (hc : Catalog accepted db)
    (hs : SystemSafe accepted db) (ha : accepted (.createTable d)) (h : TableRegistered d db db') :
    SystemSafe accepted db' := by
  have hx := hc.tableRegistered_extends hd ha h
  have hc' := hc.tableRegistered hd ha h
  have hcase := fun n t => h.table_cases (n := n) (t := t)
  have hcreates : ∀ d', accepted (.createTable d') →
      (∃ t, db'.tables.lookup d'.tableName = some t ∧ t.createdBy = some d'.jobId) →
        ∀ field ∈ d'.fields, field.name ∉ systemColumns := by
    rintro d' hd' ⟨t, ht, hj⟩
    rcases hcase _ t ht with hold | ⟨-, -, hj', hl⟩
    · exact hs.creates d' hd' ⟨t, hold, hj⟩
    · have he := hd.job_inj _ _ hd' ha (Option.some.inj (hj.symm.trans hj'))
      cases he
      exact hl.names_free
  refine ⟨⟨?_, ?_⟩, hs.edits_extend hc hx, hcreates⟩
  · intro n t j ht hj
    rcases hcase n t ht with hold | ⟨-, -, -, hl⟩
    · exact hs.intact.columns n t j hold hj
    · exact hl.system
  · intro m hm hcr f hf hid
    obtain ⟨db₁, hf₁, hw⟩ := h.fields
    rcases hw.mem f hf with ⟨field, hfield, rfl⟩ | ⟨hf, -⟩
    · -- a row of this job: its table, if created at all, was created by this job
      obtain ⟨t, j, ht, hj⟩ := hcr
      obtain ⟨d', hd', hj', hn', m', hm', hid', hmn⟩ := hc'.created m.name t j ht hj
      have hmm : m'.id = m.id := hc'.name_inj m' hm' m hm hmn
      have he := hd.create_inj d' d hd' ha (hid'.symm.trans (hmm.trans hid.symm))
      subst he
      exact hcreates d' hd' ⟨t, by rw [hn']; exact ht, by rw [hj, hj']⟩ field hfield
    · rw [hf₁] at hf
      obtain ⟨m₀, hm₀, hid₀⟩ := hc.field_table f hf
      obtain ⟨m₁, hm₁, hid₁, hn₁⟩ := hx.metaTables m₀ hm₀
      have hname := hc'.name_of_id hd hm₁ hm (hid₁.trans (hid₀.trans hid))
      obtain ⟨t, ht⟩ := hc.meta_table m₀ hm₀
      rw [← hname, hn₁] at hcr
      exact hs.intact.fields m₀ hm₀ (hcr.back hx ht) f hf hid₀.symm

theorem effects {d : FieldEditJobData} (hd : Distinct accepted) (hc : Catalog accepted db)
    (hs : SystemSafe accepted db) (ha : accepted (.fieldEdit d))
    (h : d.metadataEffects.foldlM (applyEffect d.tableId) db = .ok db') :
    SystemSafe accepted db' ∧ db'.tables = db.tables := by
  let I : TenantSchema → Prop := fun s => s.tables = db.tables ∧ s.metaTables = db.metaTables ∧
    ∀ m ∈ db.metaTables, Created db m.name → ∀ f ∈ s.metaFields, f.tableId = m.id →
      f.slug ∉ systemColumns
  have hI : I db' := by
    refine except_foldlM_invariant (I := I) ?_ ⟨rfl, rfl, hs.intact.fields⟩ h
    rintro e he s s' ⟨htab, hmeta, hfields⟩ hstep
    cases e with
    | upsertField name slug dataType required config target =>
      obtain ⟨htab', hmeta', -, -, hmem⟩ := upsertMetaField_ok hstep
      refine ⟨htab'.trans htab, hmeta'.trans hmeta, fun m hm hcr f hf hid => ?_⟩
      rcases (hmem f).mp hf with rfl | ⟨hf, -⟩
      · obtain ⟨m₀, hm₀, hid₀, hn₀⟩ := hc.edit_table d ha
        have hname := hc.name_of_id hd hm hm₀ (hid.symm.trans hid₀.symm)
        rw [hname, hn₀] at hcr
        exact (hs.edits d ha hcr).effect he slug (by simp [FieldMetadataEffect.declares])
      · exact hfields m hm hcr f hf hid
    | removeField slug =>
      cases hstep
      exact ⟨htab, hmeta, fun m hm hcr f hf => hfields m hm hcr f (List.mem_of_mem_filter hf)⟩
  obtain ⟨htab, hmeta, hfields⟩ := hI
  have hcr : ∀ n, Created db' n → Created db n := by
    rintro n ⟨t, j, ht, hj⟩
    exact ⟨t, j, by rw [← htab]; exact ht, hj⟩
  refine ⟨⟨⟨?_, ?_⟩, fun d' hd' h' => hs.edits d' hd' (hcr _ h'), ?_⟩, htab⟩
  · rw [htab]
    exact hs.intact.columns
  · rw [hmeta]
    exact fun m hm h' => hfields m hm (hcr _ h')
  · rw [htab]
    exact hs.creates

theorem write {data : DdlJobData} (hd : Distinct accepted) (hc : Catalog accepted db)
    (hs : SystemSafe accepted db) (ha : accepted data) (h : JobWrite pg data db db') :
    SystemSafe accepted db' ∧ RowsKept db db' := by
  cases h with
  | migration =>
    exact ⟨⟨⟨hs.intact.columns, hs.intact.fields⟩, hs.edits, hs.creates⟩, .of_lookup fun _ _ ht => ht⟩
  | create h =>
    have hreg := createTableBody_ok (hd.unreserved _ ha) h
    exact ⟨hs.tableRegistered hd hc ha hreg, .of_lookup fun _ _ ht => hreg.lookup ht⟩
  | @step d s _ _ hmem h =>
    obtain ⟨m, hm, -, hn⟩ := hc.edit_table _ ha
    obtain ⟨t, ht⟩ := hc.meta_table m hm
    obtain ⟨t', hch, hk⟩ := executeStep_frame (hn ▸ ht) h
    have hfree : Created db d.tableName → ∀ c ∈ systemColumns, c ∉ s.written :=
      fun hcr c hsys hc => (hs.edits d ha hcr).step hmem c hc hsys
    constructor
    · exact hs.tableChange hc hch hk.createdBy fun hcr c hsys => hk.columns c (hfree hcr c hsys)
    · refine .tableChange hch hk.createdBy fun hcr i r hr => ?_
      obtain ⟨r', hr', hrr⟩ := forall₂_getElem? hk.rows hr
      exact ⟨r', hr', fun c hc => hrr c (hfree hcr c (key_or_owner_system hc))⟩
  | effects h =>
    obtain ⟨hs', htab⟩ := hs.effects hd hc ha h
    exact ⟨hs', .of_lookup fun _ _ ht => by rw [htab]; exact ht⟩

theorem written {data : DdlJobData} (hd : Distinct accepted) (hc : Catalog accepted db)
    (hs : SystemSafe accepted db) (ha : accepted data)
    (h : ReflTransGen (JobWrite pg data) db db') : SystemSafe accepted db' ∧ RowsKept db db' := by
  induction h with
  | refl => exact ⟨hs, .refl db⟩
  | tail hr hw ih =>
    obtain ⟨hs₁, hk₁⟩ := ih
    obtain ⟨hs₂, hk₂⟩ := hs₁.write hd (hc.written hd ha hr) ha hw
    exact ⟨hs₂, hk₁.trans hk₂⟩

end SystemSafe

/-! ### Cached validation schemas -/

/-- The keys of a schema are system columns only if its table was not created. -/
def SchemaSafe (db : TenantSchema) (m : MetaTable) (schema : TableValidationSchema) : Prop :=
  Created db m.name → ∀ k ∈ schema.fields.map Prod.fst, k ∉ systemColumns

def CacheSafe (db : TenantSchema) (cache : ValidationSchemaCache) : Prop :=
  ∀ kv ∈ cache, ∃ m ∈ db.metaTables, m.id = kv.1 ∧ SchemaSafe db m kv.2

theorem assignRule_keys {fields : List (String × FieldValidationRule)}
    {rule : FieldValidationRule} {k : String} (h : k ∈ (assignRule fields rule).map Prod.fst) :
    k ∈ fields.map Prod.fst ∨ k = rule.slug := by
  unfold assignRule at h
  split at h
  · exact .inl h
  split at h
  · obtain ⟨kv, hkv, rfl⟩ := List.mem_map.mp h
    obtain ⟨kv₀, hkv₀, rfl⟩ := List.mem_map.mp hkv
    split
    · exact .inr rfl
    · exact .inl (List.mem_map.mpr ⟨kv₀, hkv₀, rfl⟩)
  · rw [List.map_append, List.mem_append] at h
    rcases h with h | h
    · exact .inl h
    · exact .inr (by simpa using h)

theorem assignRules_keys {rules : List FieldValidationRule}
    {fields : List (String × FieldValidationRule)} {k : String}
    (h : k ∈ (rules.foldl assignRule fields).map Prod.fst) :
    k ∈ fields.map Prod.fst ∨ ∃ rule ∈ rules, k = rule.slug := by
  induction rules generalizing fields with
  | nil => exact .inl h
  | cons rule rules ih =>
    rcases ih h with h | ⟨r, hr, hk⟩
    · rcases assignRule_keys h with h | h
      · exact .inl h
      · exact .inr ⟨rule, List.mem_cons_self, h⟩
    · exact .inr ⟨r, List.mem_cons_of_mem _ hr, hk⟩

theorem buildValidationSchema_keys {db : TenantSchema} {tableId : Uuid} {k : String}
    (h : k ∈ (buildValidationSchema db tableId).fields.map Prod.fst) :
    ∃ f ∈ db.metaFields, f.tableId = tableId ∧ f.slug = k := by
  rcases assignRules_keys h with h | ⟨rule, hrule, rfl⟩
  · simp at h
  · obtain ⟨f, hf, rfl⟩ := List.mem_map.mp hrule
    obtain ⟨hf, hid⟩ := List.mem_filter.mp hf
    exact ⟨f, hf, by simpa using hid, rfl⟩

section Cache

variable {db : TenantSchema} {cache : ValidationSchemaCache}

theorem CacheSafe.subset {cache' : ValidationSchemaCache} (h : CacheSafe db cache)
    (hs : ∀ kv ∈ cache', kv ∈ cache) : CacheSafe db cache' :=
  fun kv hkv => h kv (hs kv hkv)

theorem invalidateValidationSchema_subset (tableId : Uuid) :
    ∀ kv ∈ invalidateValidationSchema cache tableId, kv ∈ cache :=
  fun _ hkv => List.mem_of_mem_filter hkv

/-- What a request reads through the cache is safe, and so is the cache it
leaves. -/
theorem getOrBuild_safe (cfg : Config) (hfields : ∀ m ∈ db.metaTables, Created db m.name →
      ∀ f ∈ db.metaFields, f.tableId = m.id → f.slug ∉ systemColumns)
    (hname : ∀ m ∈ db.metaTables, ∀ m' ∈ db.metaTables, m.id = m'.id → m.name = m'.name)
    (h : CacheSafe db cache) {m : MetaTable} (hm : m ∈ db.metaTables) :
    SchemaSafe db m (getOrBuildValidationSchema cfg db cache m.id).1 ∧
      CacheSafe db (getOrBuildValidationSchema cfg db cache m.id).2 := by
  unfold getOrBuildValidationSchema
  split
  · rename_i kv hkv
    have hmem := List.mem_of_find?_eq_some hkv
    have hkey : kv.1 = m.id := by simpa using List.find?_some hkv
    obtain ⟨m', hm', hid, hsafe⟩ := h kv hmem
    refine ⟨fun hcr => hsafe ?_, h.subset fun x hx => ?_⟩
    · rw [hname m' hm' m hm (hid.trans hkey)]
      exact hcr
    · rcases List.mem_append.mp hx with hx | hx
      · exact invalidateValidationSchema_subset m.id x hx
      · rw [List.mem_singleton.mp hx]
        exact hmem
  · have hsafe : SchemaSafe db m (buildValidationSchema db m.id) := by
      intro hcr k hk
      obtain ⟨f, hf, hid, rfl⟩ := buildValidationSchema_keys hk
      exact hfields m hm hcr f hf hid
    refine ⟨hsafe, fun x hx => ?_⟩
    have hx := List.mem_of_mem_drop hx
    rcases List.mem_append.mp hx with hx | hx
    · exact h x (invalidateValidationSchema_subset m.id x hx)
    · rw [List.mem_singleton.mp hx]
      exact ⟨m, hm, rfl, hsafe⟩

theorem CacheSafe.extend {db' : TenantSchema} (h : CacheSafe db cache) (hx : Extends db db')
    (htable : ∀ m ∈ db.metaTables, ∃ t, db.tables.lookup m.name = some t) :
    CacheSafe db' cache := by
  intro kv hkv
  obtain ⟨m, hm, hid, hsafe⟩ := h kv hkv
  obtain ⟨m', hm', hid', hn⟩ := hx.metaTables m hm
  obtain ⟨t, ht⟩ := htable m hm
  refine ⟨m', hm', hid'.trans hid, fun hcr => hsafe ?_⟩
  rw [hn] at hcr
  exact hcr.back hx ht

end Cache

/-! ### Runs -/

structure SystemInvariant (w : World) : Prop where
  registered : Registered w
  safe : SystemSafe w.accepted w.db
  cache : CacheSafe w.db w.cache

namespace SystemInvariant

variable {env : Env} {w w' : World} {e : Event}

theorem read (hi : SystemInvariant w) {cache : ValidationSchemaCache}
    (h : CacheRead env.cfg w cache) : CacheSafe w.db cache := by
  cases h with
  | none => exact hi.cache
  | read hm =>
    exact (getOrBuild_safe env.cfg hi.safe.intact.fields (fun m hm m' hm' =>
      hi.registered.catalog.name_of_id hi.registered.distinct hm hm') hi.cache hm).2

theorem transition (hi : SystemInvariant w) (hok : NoSystemEdit env w e)
    (h : Transition env w e w') : SystemInvariant w' ∧ RowsKept w.db w'.db := by
  have hr := hi.registered
  have hreg := hr.transition h
  have hx := hr.transition_extends h
  cases h with
  | refused hcache => exact ⟨⟨hreg, hi.safe, hi.read hcache⟩, .refl w.db⟩
  | @createTable dto d accepted =>
    have ha := enqueueCreateTable_ok accepted
    refine ⟨⟨hreg, ⟨hi.safe.intact, ?_, ?_⟩, hi.cache⟩, .refl w.db⟩
    · intro d' hd'
      rcases (accepted_enqueue _).mp hd' with hd' | hd'
      · exact hi.safe.edits d' hd'
      · cases hd'
    · rintro d' hd' ⟨t, ht, hj⟩
      rcases (accepted_enqueue _).mp hd' with hd' | hd'
      · exact hi.safe.creates d' hd' ⟨t, ht, hj⟩
      · -- the job is new: no table can be its work yet
        cases hd'
        obtain ⟨d₀, hd₀, hj₀, -⟩ := hr.catalog.created _ t _ ht hj
        have hlt : d₀.jobId < w.nextUuid := hr.jobId_lt hd₀
        rw [hj₀, ha.jobId] at hlt
        exact absurd hlt (Nat.lt_irrefl _)
  | @fieldEdit tableId dto d accepted =>
    have ha := enqueueFieldEdit_ok accepted
    refine ⟨⟨hreg, ⟨hi.safe.intact, ?_, ?_⟩, ?_⟩, .refl w.db⟩
    · intro d' hd' hcr
      rcases (accepted_enqueue (n := 1) _).mp hd' with hd' | hd'
      · exact hi.safe.edits d' hd' hcr
      · cases hd'
        obtain ⟨plan, hplan, hcols⟩ := plan_of_accepted ha
        refine ⟨plan, hplan.steps, hplan.effects, fun p hp => ?_⟩
        have hm : p.column ∈ dto.edits.map FieldEditDto.name := by
          rw [← hcols]
          exact List.mem_map.mpr ⟨p, hp, rfl⟩
        obtain ⟨edit, hedit, hn⟩ := List.mem_map.mp hm
        rw [← hn]
        exact hok d accepted hcr edit hedit
    · intro d' hd'
      rcases (accepted_enqueue (n := 1) _).mp hd' with hd' | hd'
      · exact hi.safe.creates d' hd'
      · cases hd'
    · exact hi.cache.subset (invalidateValidationSchema_subset d.tableId)
  | @attempt job faults mem unfinished =>
    have ha := Job.run_attempted env job faults w.db
    have hacc := funext fun data => propext (accepted_setJob hr ha mem data)
    obtain ⟨hs, hk⟩ := hi.safe.written hr.distinct hr.catalog ⟨job, mem, rfl⟩ ha.written
    refine ⟨⟨hreg, ?_, hi.cache.extend hx hr.catalog.meta_table⟩, hk⟩
    rw [hacc]
    exact hs
  | @createRow user payload bytes m t row cache hm ht hcache =>
    refine ⟨⟨hreg, ?_, (hi.read hcache).extend hx hr.catalog.meta_table⟩, ?_⟩
    · exact hi.safe.tableChange hr.catalog (.setTable ht) rfl fun _ _ _ => rfl
    · refine .tableChange (.setTable ht) rfl fun _ i r hi => ⟨r, ?_, fun _ _ => rfl⟩
      have hlt := (List.getElem?_eq_some_iff.mp hi).1
      rw [List.getElem?_append_left hlt]
      exact hi
  | @updateRow rowId payload bytes m t rows hm ht kept =>
    obtain ⟨hschema, hcache⟩ := getOrBuild_safe env.cfg hi.safe.intact.fields
      (fun m hm m' hm' => hr.catalog.name_of_id hr.distinct hm hm') hi.cache hm
    refine ⟨⟨hreg, ?_, hcache.extend hx hr.catalog.meta_table⟩, ?_⟩
    · exact hi.safe.tableChange hr.catalog (.setTable ht) rfl fun _ _ _ => rfl
    · refine .tableChange (.setTable ht) rfl fun hcr i r hi => ?_
      obtain ⟨r', hr', hrr⟩ := forall₂_getElem? kept hi
      exact ⟨r', hr', fun c hc => hrr c fun hk => hschema hcr c hk (key_or_owner_system hc)⟩

theorem bootstrapped {schema : String} {tables : Tables}
    (h : ∀ n t, tables.lookup n = some t → t.createdBy = none) :
    SystemInvariant (bootstrapped schema tables) := by
  have hno : ∀ data, ¬(DynamicTables.bootstrapped schema tables).accepted data := by
    rintro data ⟨job, hjob, -⟩
    cases hjob
  refine ⟨registered_bootstrapped h, ⟨⟨?_, ?_⟩, ?_, ?_⟩, ?_⟩
  · intro n t j ht hj
    rw [h n t ht] at hj
    cases hj
  · exact fun m hm => by cases hm
  · exact fun d hd => absurd hd (hno _)
  · exact fun d hd => absurd hd (hno _)
  · exact fun kv hkv => by cases hkv

theorem reach {schema : String} {tables : Tables}
    (hby : ∀ n t, tables.lookup n = some t → t.createdBy = none)
    (h : Reach (step env) (NoSystemEdit env) (DynamicTables.bootstrapped schema tables) w) :
    SystemInvariant w :=
  h.invariant (.bootstrapped hby) fun _ _ _ _ hi hok hs =>
    (hi.transition hok (transition_of_step hs)).1

end SystemInvariant

/-- In a run without edits of system columns these stay as they were created,
undeclared, and every row keeps its id and its owner through every step. -/
theorem system_columns_untouched {env : Env} {schema : String} {tables : Tables} {w : World}
    (hby : ∀ n t, tables.lookup n = some t → t.createdBy = none)
    (h : Reach (step env) (NoSystemEdit env) (bootstrapped schema tables) w) :
    SystemColumnsIntact w.db ∧
      ∀ e w', NoSystemEdit env w e → step env w e = some w' → RowsKept w.db w'.db := by
  have hi := SystemInvariant.reach hby h
  exact ⟨hi.safe.intact, fun e w' hok hs => (hi.transition hok (transition_of_step hs)).2⟩

/-! ### An edit that names `id` -/

/-- A table with one field added to it, and its first row. -/
def addFieldRun (name : String) : List Event :=
  [.createTable ordersTable, .attempt 0 [], .fieldEdit 1 (addField name .NUMBER false),
    .attempt 2 [], .createRow "u1" 1 (.obj [("title", .str "a")]) 20]

theorem system_columns_untouched_qty :
    ∃ w, runAll (step plainEnv) (bootstrapped "tenant_a" ∅) (addFieldRun "qty") = some w ∧
      SystemColumnsIntact w.db ∧
      ∀ e w', NoSystemEdit plainEnv w e → step plainEnv w e = some w' → RowsKept w.db w'.db := by
  have hrun : (runAll (step plainEnv) (bootstrapped "tenant_a" ∅) (addFieldRun "qty")).isSome := by
    decide +kernel
  obtain ⟨w, hw⟩ := Option.isSome_iff_exists.mp hrun
  refine ⟨w, hw, system_columns_untouched (fun n t h => by cases h)
    (.of_runAll (.of_labels (fun e he w => ?_) _) hw)⟩
  simp only [addFieldRun, List.mem_cons, List.not_mem_nil, or_false] at he
  rcases he with rfl | rfl | rfl | rfl | rfl
  · trivial
  · trivial
  · intro d _ _ edit hedit
    rw [List.mem_singleton.mp hedit]
    decide
  · trivial
  · trivial

/-- Who made `orders`, and the id of its first row. -/
def firstId (db : TenantSchema) : Option (Uuid × ℤ) := do
  let t ← db.tables.lookup "orders"
  let j ← t.createdBy
  let r ← t.rows[0]?
  match r "id" with
  | .int i => some (j, i)
  | _ => none

theorem firstId_kept {db db' : TenantSchema} (h : RowsKept db db') {x : Uuid × ℤ}
    (hx : firstId db = some x) : firstId db' = some x := by
  unfold firstId at hx
  obtain ⟨t, ht, hx⟩ := Option.bind_eq_some_iff.mp hx
  obtain ⟨j, hj, hx⟩ := Option.bind_eq_some_iff.mp hx
  obtain ⟨r, hr, hx⟩ := Option.bind_eq_some_iff.mp hx
  obtain ⟨t', ht', hj', hrows⟩ := h "orders" t j ht hj
  obtain ⟨r', hr', hc⟩ := hrows 0 r hr
  have hid : r' "id" = r "id" := hc "id" List.mem_cons_self
  unfold firstId
  simp only [ht', hj', hr', hid, bind, Option.bind]
  exact hx

/-- A field named `id` can be added; an update of its row then writes the key. -/
theorem system_columns_touched :
    ¬ ∀ (env : Env) (schema : String) (w : World),
      Reach (step env) (fun _ _ => True) (bootstrapped schema ∅) w →
        SystemColumnsIntact w.db ∧ ∀ e w', step env w e = some w' → RowsKept w.db w'.db := by
  intro hall
  have hrun : ((runAll (step plainEnv) (bootstrapped "tenant_a" ∅) (addFieldRun "id")).bind fun w =>
      (step plainEnv w (.updateRow 1 1 (.obj [("id", .num (.finite 999))]) 20)).map fun w' =>
        (firstId w.db, firstId w'.db)) = some (some (0, 1), some (0, 999)) := by
    decide +kernel
  obtain ⟨w, hw, hrun⟩ := Option.bind_eq_some_iff.mp hrun
  obtain ⟨w', hw', hids⟩ := Option.map_eq_some_iff.mp hrun
  obtain ⟨hid, hid'⟩ := Prod.mk.inj hids
  have hreach : Reach (step plainEnv) (fun _ _ => True) (bootstrapped "tenant_a" ∅) w :=
    .of_runAll (.of_labels (fun _ _ _ => trivial) _) hw
  have hkept := firstId_kept ((hall plainEnv "tenant_a" w hreach).2 _ w' hw') hid
  rw [hid'] at hkept
  cases hkept

end Flexi.DynamicTables
