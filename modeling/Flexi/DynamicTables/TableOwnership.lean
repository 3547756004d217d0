import Flexi.DynamicTables.JobOrder
import Flexi.DynamicTables.TableLayout
import Flexi.Tenants.Seed

/-!
# Who made a registered table

The existence check that makes a create-table job repeatable also lets it adopt
a table it did not make. Only the tables of provisioning can be adopted so: a
registered table was made by the job that registered it, after that job was
accepted, exactly when its name is none of theirs.
-/

namespace Flexi.DynamicTables
open Flexi.Library Flexi.Tenants Relation

/-- A field edit of the table has been attempted. -/
def Edited (w : World) (tableId : Uuid) : Prop :=
  ∃ k ∈ w.jobs, ∃ d, k.data = .fieldEdit d ∧ d.tableId = tableId ∧ k.attemptsMade ≠ 0

/-- `job` made the physical table of `m`, which was not there when the job was
accepted; until a field edit is attempted it has the declared columns. -/
structure Owns (w : World) (job : Job) (m : MetaTable) : Prop where
  made : ∃ d, job.data = .createTable d ∧ m.id = d.tableId ∧ m.name = d.tableName ∧
    ∃ t, w.db.tables.lookup m.name = some t ∧ t.createdBy = some job.id ∧
      (¬Edited w m.id → Layout d.fields t.columns)
  new : m.name ∉ job.tablesAtAcceptance

/-! ### A completed job has registered its table -/

theorem processCreateTable_registers {d : CreateTableJobData}
    (hres : d.tableName ∉ [META_TABLES, META_FIELDS, META_MIGRATIONS]) :
    TxProg.Triple (fun _ => True) (processCreateTable d)
      (fun _ s => metaTableRow d.tableId d.tableName d.description ∈ s.store.metaTables)
      fun _ => True := by
  let J : Assertion := fun db _ => metaTableRow d.tableId d.tableName d.description ∈ db.metaTables
  refine (recorded_rule (I := fun _ _ => True) (J := J) (fun _ _ _ h => h) (fun _ _ _ h => h)
    fun db db' n _ h => ?_).conseq (fun _ h => h) (fun _ _ h => h) fun _ _ => trivial
  exact ((createTableBody_ok hres h).metaTables _).mpr (.inl rfl)

theorem Job.run_registers (env : Env) (job : Job) (faults : List (Option String))
    (db : TenantSchema) {d : CreateTableJobData} (hd : job.data = .createTable d)
    (hres : d.tableName ∉ [META_TABLES, META_FIELDS, META_MIGRATIONS])
    (hstate : (job.run env faults db).1.state = .completed) :
    metaTableRow d.tableId d.tableName d.description ∈ (job.run env faults db).2.metaTables := by
  have h := processCreateTable_registers hres
    { store := db, faults := faults, committed := 0 } trivial
  have hp : process env.pg job.data = processCreateTable d := by
    rw [hd]
    rfl
  unfold Job.run at hstate ⊢
  rw [hp] at hstate ⊢
  revert h hstate
  cases (processCreateTable d).exec { store := db, faults := faults, committed := 0 } with
  | mk r s =>
    cases r with
    | ok a => exact fun _ h => h
    | error e =>
      intro hstate _
      dsimp only at hstate
      split at hstate <;> cases hstate

/-! ### The invariant -/

/-- What ownership rests on, for the payloads `accepted` and the tables
`tables` of provisioning. -/
structure Ownership (tables : Tables) (accepted : DdlJobData → Prop) (edited : Uuid → Prop)
    (db : TenantSchema) : Prop where
  present : ∀ n ∈ tables.keys, ∃ t, db.tables.lookup n = some t
  seeded : ∀ n t, db.tables.lookup n = some t → (t.createdBy = none ↔ n ∈ tables.keys)
  owned : ∀ m ∈ db.metaTables, m.name ∉ tables.keys → ∃ d t, accepted (.createTable d) ∧
    m.id = d.tableId ∧ m.name = d.tableName ∧ db.tables.lookup m.name = some t ∧
    t.createdBy = some d.jobId
  layout : ∀ d t, accepted (.createTable d) → db.tables.lookup d.tableName = some t →
    t.createdBy = some d.jobId → ¬edited d.tableId → Layout d.fields t.columns
  rows : ∀ d, accepted (.createTable d) → ¬edited d.tableId → ∀ f ∈ db.metaFields,
    f.tableId = d.tableId → ∃ field ∈ d.fields, f = createdField d.tableId field

namespace Ownership

variable {pg : Postgres} {tables : Tables} {accepted : DdlJobData → Prop} {edited : Uuid → Prop}
  {db db' : TenantSchema}

theorem mono {edited' : Uuid → Prop} (h : Ownership tables accepted edited db)
    (he : ∀ id, edited id → edited' id) : Ownership tables accepted edited' db where
  present := h.present
  seeded := h.seeded
  owned := h.owned
  layout := fun d t hd ht hj hne => h.layout d t hd ht hj fun hed => hne (he _ hed)
  rows := fun d hd hne => h.rows d hd fun hed => hne (he _ hed)

theorem tableChange {name : String} {t t' : PhysTable} (h : Ownership tables accepted edited db)
    (hch : TableChange name t t' db db') (hby : t'.createdBy = t.createdBy)
    (hcols : ∀ d, accepted (.createTable d) → d.tableName = name → t.createdBy = some d.jobId →
      ¬edited d.tableId → t'.columns = t.columns) : Ownership tables accepted edited db' := by
  have hx := Extends.tableChange hch hby
  refine ⟨?_, ?_, ?_, ?_, by rw [hch.metaFields]; exact h.rows⟩
  · intro n hn
    obtain ⟨u, hu⟩ := h.present n hn
    obtain ⟨u', hu', -⟩ := hx.tables n u hu
    exact ⟨u', hu'⟩
  · intro n u hu
    by_cases hn : n = name
    · subst hn
      have hut : u = t' := Option.some.inj (hu.symm.trans hch.after)
      rw [hut, hby]
      exact h.seeded n t hch.before
    · rw [hch.others n hn] at hu
      exact h.seeded n u hu
  · rw [hch.metaTables]
    intro m hm hfree
    obtain ⟨d, u, hd, hid, hn, hu, hj⟩ := h.owned m hm hfree
    obtain ⟨u', hu', hby'⟩ := hx.tables _ u hu
    exact ⟨d, u', hd, hid, hn, hu', hby'.trans hj⟩
  · intro d u hd hu hj hne
    by_cases hn : d.tableName = name
    · rw [hn] at hu
      have hut : u = t' := Option.some.inj (hu.symm.trans hch.after)
      subst hut
      have hjt := hby.symm.trans hj
      rw [hcols d hd hn hjt hne]
      exact h.layout d t hd (by rw [hn]; exact hch.before) hjt hne
    · rw [hch.others _ hn] at hu
      exact h.layout d u hd hu hj hne

/-- The create-table transaction. If it finds a table that is not of provisioning,
the slug check lets only the job that made it pass. -/
theorem tableRegistered {d : CreateTableJobData} (hd : Distinct accepted) (hc : Catalog accepted db)
    (h : Ownership tables accepted edited db) (ha : accepted (.createTable d))
    (hreg : TableRegistered d db db') : Ownership tables accepted edited db' := by
  have hcase := fun n t => hreg.table_cases (n := n) (t := t)
  refine ⟨?_, ?_, ?_, ?_, ?_⟩
  · intro n hn
    obtain ⟨t, ht⟩ := h.present n hn
    exact ⟨t, hreg.lookup ht⟩
  · intro n t ht
    rcases hcase n t ht with hold | ⟨rfl, hnone, hj, -⟩
    · exact h.seeded n t hold
    · refine ⟨fun hj' => ?_, fun hn => ?_⟩
      · rw [hj'] at hj
        cases hj
      · obtain ⟨u, hu⟩ := h.present _ hn
        rw [hnone] at hu
        cases hu
  · intro m hm hfree
    rcases (hreg.metaTables m).mp hm with rfl | ⟨hm, -⟩
    · rcases hreg.physical with ⟨t, ht, -⟩ | ⟨cols, -, -, -, he⟩
      · refine ⟨d, t, ha, rfl, rfl, hreg.lookup ht, ?_⟩
        cases hj : t.createdBy with
        | none => exact absurd ((h.seeded _ t ht).mp hj) hfree
        | some j =>
          obtain ⟨d', hd', hj', -, m', hm', hid', hn'⟩ := hc.created _ t j ht hj
          have hslug := hreg.slug m' hm' ((hc.meta_job m' hm').1.trans hn')
          rw [← hj', hd.create_inj d' d hd' ha (hid'.symm.trans hslug)]
      · exact ⟨d, _, ha, rfl, rfl, by rw [he]; exact AList.lookup_insert _, rfl⟩
    · obtain ⟨d', t, hd', hid, hn, ht, hj⟩ := h.owned m hm hfree
      exact ⟨d', t, hd', hid, hn, hreg.lookup ht, hj⟩
  · intro d' t hd' ht hj hne
    rcases hcase _ t ht with hold | ⟨-, -, hj', hl⟩
    · exact h.layout d' t hd' hold hj hne
    · have he := hd.job_inj _ _ hd' ha (Option.some.inj (hj.symm.trans hj'))
      cases he
      exact hl
  · intro d' hd' hne f hf hid
    obtain ⟨db₁, hf₁, hw⟩ := hreg.fields
    rcases hw.mem f hf with ⟨field, hfield, rfl⟩ | ⟨hf, -⟩
    · have he := hd.create_inj d d' ha hd' hid
      subst he
      exact ⟨field, hfield, rfl⟩
    · rw [hf₁] at hf
      exact h.rows d' hd' hne f hf hid

theorem write {data : DdlJobData} (hd : Distinct accepted) (hc : Catalog accepted db)
    (h : Ownership tables accepted edited db) (ha : accepted data)
    (hedit : ∀ d, data = .fieldEdit d → edited d.tableId) (hw : JobWrite pg data db db') :
    Ownership tables accepted edited db' := by
  cases hw with
  | migration => exact ⟨h.present, h.seeded, h.owned, h.layout, h.rows⟩
  | @create d _ _ hb =>
    exact h.tableRegistered hd hc ha (createTableBody_ok (hd.unreserved _ ha) hb)
  | @step d s _ _ hmem hs =>
    obtain ⟨m, hm, hid, hn⟩ := hc.edit_table _ ha
    obtain ⟨t, ht⟩ := hc.meta_table m hm
    obtain ⟨t', hch, hk⟩ := executeStep_frame (hn ▸ ht) hs
    refine h.tableChange hch hk.createdBy fun d' hd' hn' hj' hne => ?_
    -- the edited table is the one `d'` made, and it counts as edited
    obtain ⟨d₀, hd₀, hj₀, -, m₀, hm₀, hid₀, hn₀⟩ := hc.created _ t _ hch.before hj'
    have hdd := hd.job_inj _ _ hd₀ hd' hj₀
    cases hdd
    have hmm := hc.name_inj m₀ hm₀ m hm (hn₀.trans hn.symm)
    rw [← hid₀, hmm, hid] at hne
    exact absurd (hedit d rfl) hne
  | @effects d _ _ hs =>
    obtain ⟨htab, hmeta, -, hfields⟩ := Catalog.applyEffects_frame hs
    refine ⟨?_, ?_, ?_, ?_, ?_⟩
    · rw [htab]
      exact h.present
    · rw [htab]
      exact h.seeded
    · rw [htab, hmeta]
      exact h.owned
    · rw [htab]
      exact h.layout
    · intro d' hd' hne f hf hid
      have hid' : f.tableId ≠ d.tableId := fun he => hne (by rw [← hid, he]; exact hedit d rfl)
      exact h.rows d' hd' hne f ((hfields f hid').mp hf) hid

theorem written {data : DdlJobData} (hd : Distinct accepted) (hc : Catalog accepted db)
    (h : Ownership tables accepted edited db) (ha : accepted data)
    (hedit : ∀ d, data = .fieldEdit d → edited d.tableId)
    (hw : ReflTransGen (JobWrite pg data) db db') : Ownership tables accepted edited db' := by
  induction hw with
  | refl => exact h
  | tail hr hw ih => exact ih.write hd (hc.written hd ha hr) ha hedit hw

end Ownership

/-! ### Runs -/

structure OwnershipInvariant (tables : Tables) (w : World) : Prop where
  registered : Registered w
  ownership : Ownership tables w.accepted (Edited w) w.db
  found : ∀ job ∈ w.jobs, ∀ n ∈ job.tablesAtAcceptance,
    ∃ t, w.db.tables.lookup n = some t ∧ t.createdBy ≠ some job.id
  completed : ∀ job ∈ w.jobs, ∀ d, job.data = .createTable d → job.state = .completed →
    ∃ m ∈ w.db.metaTables, m.id = d.tableId ∧ m.name = d.tableName

section Edited

variable {env : Env} {w : World} {job job' : Job} {db' : TenantSchema}

theorem edited_setJob (hr : Registered w) (ha : Attempted env job w.db job' db')
    (mem : job ∈ w.jobs) {tableId : Uuid} (h : Edited w tableId) :
    Edited (w.setJob job' db') tableId := by
  obtain ⟨k, hk, d, hd, hid, hne⟩ := h
  by_cases he : k.id = job.id
  · have hkj := hr.job_eq mem hk he
    subst hkj
    refine ⟨job', (mem_setJob ha mem job').mpr (.inl rfl), d, ha.data.trans hd, hid, ?_⟩
    rw [ha.attemptsMade]
    omega
  · exact ⟨k, (mem_setJob ha mem k).mpr (.inr ⟨hk, he⟩), d, hd, hid, hne⟩

theorem edited_attempted (ha : Attempted env job w.db job' db') (mem : job ∈ w.jobs)
    {d : FieldEditJobData} (hd : job.data = .fieldEdit d) :
    Edited (w.setJob job' db') d.tableId := by
  refine ⟨job', (mem_setJob ha mem job').mpr (.inl rfl), d, ha.data.trans hd, rfl, ?_⟩
  rw [ha.attemptsMade]
  omega

theorem edited_enqueue {data : DdlJobData} {n : ℕ} {tableId : Uuid} :
    Edited (w.enqueue data n) tableId ↔ Edited w tableId := by
  constructor
  · rintro ⟨k, hk, d, hd, hid, hne⟩
    rcases (mem_enqueue k).mp hk with hk | rfl
    · exact ⟨k, hk, d, hd, hid, hne⟩
    · exact absurd rfl hne
  · rintro ⟨k, hk, d, hd, hid, hne⟩
    exact ⟨k, (mem_enqueue k).mpr (.inl hk), d, hd, hid, hne⟩

end Edited

namespace OwnershipInvariant

variable {env : Env} {tables : Tables} {w w' : World} {e : Event}

theorem enqueue {data : DdlJobData} {n : ℕ} (hi : OwnershipInvariant tables w)
    (hreg : Registered (w.enqueue data n)) (hid : data.jobId = w.nextUuid)
    (hrows : ∀ d, data = .createTable d → ∀ f ∈ w.db.metaFields, f.tableId ≠ d.tableId) :
    OwnershipInvariant tables (w.enqueue data n) := by
  have hr := hi.registered
  -- nothing in the schema is the work of a job that is only now accepted
  have hnew : ∀ m t, w.db.tables.lookup m = some t → t.createdBy ≠ some data.jobId := by
    intro m t ht hj
    obtain ⟨d, hd, hj', -⟩ := hr.catalog.created m t _ ht hj
    have hlt : d.jobId < w.nextUuid := hr.jobId_lt hd
    rw [hj', hid] at hlt
    exact Nat.lt_irrefl _ hlt
  refine ⟨hreg, ⟨hi.ownership.present, hi.ownership.seeded, ?_, ?_, ?_⟩, ?_, ?_⟩
  · intro m hm hfree
    obtain ⟨d, t, hd, h⟩ := hi.ownership.owned m hm hfree
    exact ⟨d, t, (accepted_enqueue _).mpr (.inl hd), h⟩
  · intro d t hd ht hj hne
    rcases (accepted_enqueue _).mp hd with hd | hd
    · exact hi.ownership.layout d t hd ht hj fun he => hne (edited_enqueue.mpr he)
    · rw [← hd] at hnew
      exact absurd hj (hnew _ t ht)
  · intro d hd hne f hf hid'
    rcases (accepted_enqueue _).mp hd with hd | hd
    · exact hi.ownership.rows d hd (fun he => hne (edited_enqueue.mpr he)) f hf hid'
    · exact absurd hid' (hrows d hd.symm f hf)
  · intro job hjob m hm
    rcases (mem_enqueue job).mp hjob with hjob | rfl
    · exact hi.found job hjob m hm
    · obtain ⟨t, ht⟩ := Option.isSome_iff_exists.mp (AList.lookup_isSome.mpr hm)
      exact ⟨t, ht, hnew m t ht⟩
  · intro job hjob d hd hst
    rcases (mem_enqueue job).mp hjob with hjob | rfl
    · exact hi.completed job hjob d hd hst
    · cases hst

theorem tableChange {name : String} {t t' : PhysTable} {db' : TenantSchema}
    {cache : ValidationSchemaCache} (hi : OwnershipInvariant tables w)
    (hreg : Registered { w with db := db', cache := cache }) (hch : TableChange name t t' w.db db')
    (hby : t'.createdBy = t.createdBy) (hcols : t'.columns = t.columns) :
    OwnershipInvariant tables { w with db := db', cache := cache } := by
  have hx := Extends.tableChange hch hby
  refine ⟨hreg, hi.ownership.tableChange hch hby fun _ _ _ _ _ => hcols, ?_, ?_⟩
  · intro job hjob n hn
    obtain ⟨u, hu, hne⟩ := hi.found job hjob n hn
    obtain ⟨u', hu', hby'⟩ := hx.tables n u hu
    exact ⟨u', hu', by rw [hby']; exact hne⟩
  · intro job hjob d hd hst
    obtain ⟨m, hm, h⟩ := hi.completed job hjob d hd hst
    exact ⟨m, by rw [hch.metaTables]; exact hm, h⟩

theorem transition (hi : OwnershipInvariant tables w) (h : Transition env w e w') :
    OwnershipInvariant tables w' := by
  have hr := hi.registered
  have hreg := hr.transition h
  have hx := hr.transition_extends h
  cases h with
  | refused _ => exact ⟨hreg, hi.ownership, hi.found, hi.completed⟩
  | @createTable dto d accepted =>
    have ha := enqueueCreateTable_ok accepted
    refine hi.enqueue hreg ha.jobId fun d' hd' f hf hid => ?_
    cases hd'
    have hlt := hr.field_tableId_lt hf
    rw [hid, ha.tableId] at hlt
    exact Nat.not_succ_lt_self hlt
  | @fieldEdit tableId dto d accepted =>
    have hreg' : Registered (w.enqueue (.fieldEdit d) 1) := hreg.of_db hreg.catalog
    have hi' := hi.enqueue hreg' (enqueueFieldEdit_ok accepted).jobId fun d' hd' => by cases hd'
    exact ⟨hreg, hi'.ownership, hi'.found, hi'.completed⟩
  | @attempt job faults mem unfinished =>
    have ha := Job.run_attempted env job faults w.db
    have hacc := funext fun data => propext (accepted_setJob hr ha mem data)
    refine ⟨hreg, ?_, ?_, ?_⟩
    · rw [hacc]
      exact (hi.ownership.mono fun id he => edited_setJob hr ha mem he).written hr.distinct
        hr.catalog ⟨job, mem, rfl⟩ (fun d hd => edited_attempted ha mem hd) ha.written
    · intro k hk n hn
      obtain ⟨k₀, hk₀, hid, hn₀⟩ : ∃ k₀ ∈ w.jobs, k.id = k₀.id ∧ n ∈ k₀.tablesAtAcceptance := by
        rcases (mem_setJob ha mem k).mp hk with rfl | ⟨hk, -⟩
        · exact ⟨job, mem, ha.id, by rw [← ha.tablesAtAcceptance]; exact hn⟩
        · exact ⟨k, hk, rfl, hn⟩
      obtain ⟨t, ht, hne⟩ := hi.found k₀ hk₀ n hn₀
      obtain ⟨t', ht', hby⟩ := hx.tables n t ht
      exact ⟨t', ht', by rw [hby, hid]; exact hne⟩
    · intro k hk d hd hst
      rcases (mem_setJob ha mem k).mp hk with rfl | ⟨hk, -⟩
      · have hd' := ha.data.symm.trans hd
        have hres := hr.distinct.unreserved d ⟨job, mem, hd'⟩
        exact ⟨_, Job.run_registers env job faults w.db hd' hres hst, rfl, rfl⟩
      · obtain ⟨m, hm, hid, hn⟩ := hi.completed k hk d hd hst
        obtain ⟨m', hm', hid', hn'⟩ := hx.metaTables m hm
        exact ⟨m', hm', hid'.trans hid, hn'.trans hn⟩
  | createRow hm ht _ => exact hi.tableChange hreg (.setTable ht) rfl rfl
  | updateRow hm ht _ => exact hi.tableChange hreg (.setTable ht) rfl rfl

theorem bootstrapped {schema : String}
    (h : ∀ n t, tables.lookup n = some t → t.createdBy = none) :
    OwnershipInvariant tables (bootstrapped schema tables) := by
  have hno : ∀ data, ¬(DynamicTables.bootstrapped schema tables).accepted data := by
    rintro data ⟨job, hjob, -⟩
    cases hjob
  refine ⟨registered_bootstrapped h, ⟨?_, ?_, ?_, ?_, ?_⟩, ?_, ?_⟩
  · exact fun n hn => Option.isSome_iff_exists.mp (AList.lookup_isSome.mpr hn)
  · intro n t ht
    have ht : tables.lookup n = some t := ht
    exact ⟨fun _ => AList.lookup_isSome.mp (by rw [ht]; rfl), fun _ => h n t ht⟩
  · exact fun m hm => by cases hm
  · exact fun d t hd => absurd hd (hno _)
  · exact fun d hd => absurd hd (hno _)
  · exact fun job hjob => by cases hjob
  · exact fun job hjob => by cases hjob

theorem reach {Ok : World → Event → Prop} {schema : String}
    (hby : ∀ n t, tables.lookup n = some t → t.createdBy = none)
    (h : Reach (step env) Ok (DynamicTables.bootstrapped schema tables) w) :
    OwnershipInvariant tables w :=
  h.invariant (.bootstrapped hby) fun _ _ _ _ hi _ hs => hi.transition (transition_of_step hs)

theorem owner (hi : OwnershipInvariant tables w) {m : MetaTable} (hm : m ∈ w.db.metaTables)
    (hfree : m.name ∉ tables.keys) : ∃ job ∈ w.jobs, job.data.tableId = m.id ∧ Owns w job m := by
  obtain ⟨d, t, ⟨job, hjob, hd⟩, hid, hn, ht, hj⟩ := hi.ownership.owned m hm hfree
  have hjid : job.id = d.jobId := by
    rw [← hi.registered.id_data job hjob, hd]
    rfl
  refine ⟨job, hjob, by rw [hd, hid]; rfl, ⟨d, hd, hid, hn, t, ht, by rw [hj, hjid], fun hne => ?_⟩,
    fun hmem => ?_⟩
  · rw [hid] at hne
    exact hi.ownership.layout d t ⟨job, hjob, hd⟩ (by rw [← hn]; exact ht) hj hne
  · obtain ⟨u, hu, hu'⟩ := hi.found job hjob m.name hmem
    rw [ht] at hu
    cases hu
    exact hu' (by rw [hj, hjid])

theorem free_of_owns (hi : OwnershipInvariant tables w) {job : Job} {m : MetaTable}
    (h : Owns w job m) : m.name ∉ tables.keys := by
  obtain ⟨d, -, -, -, t, ht, hj, -⟩ := h.made
  intro hn
  rw [(hi.ownership.seeded m.name t ht).mpr hn] at hj
  cases hj

/-- A completed create-table job has its metadata row, and owns its table unless
that is a table of provisioning. -/
theorem completed_owner (hi : OwnershipInvariant tables w) {job : Job} (hjob : job ∈ w.jobs)
    {d : CreateTableJobData} (hd : job.data = .createTable d) (hst : job.state = .completed) :
    ∃ m ∈ w.db.metaTables, m.id = d.tableId ∧ m.name = d.tableName ∧
      (m.name ∉ tables.keys → Owns w job m) := by
  obtain ⟨m, hm, hid, hn⟩ := hi.completed job hjob d hd hst
  refine ⟨m, hm, hid, hn, fun hfree => ?_⟩
  obtain ⟨k, hk, hkid, hown⟩ := hi.owner hm hfree
  obtain ⟨d', hd', hid', -⟩ := hown.made
  have he := hi.registered.distinct.create_inj d' d ⟨k, hk, hd'⟩ ⟨job, hjob, hd⟩
    (hid'.symm.trans hid)
  subst he
  have hkj : k = job := by
    refine hi.registered.job_eq hjob hk ?_
    rw [← hi.registered.id_data k hk, ← hi.registered.id_data job hjob, hd, hd']
  rw [← hkj]
  exact hown

end OwnershipInvariant

/-- The step of a sequential run that completes a create-table job leaves the
table's field edits untried. -/
theorem unedited_of_completing {env : Env} {w w' : World} {e : Event} (hr : Registered w)
    (ho : InOrder w) (hseq : Sequential w e) (h : Transition env w e w') {job : Job}
    (hjob : job ∈ w'.jobs) {d : CreateTableJobData} (hd : job.data = .createTable d)
    (hst : job.state = .completed)
    (hfirst : ∀ k ∈ w.jobs, k.id = job.id → k.state ≠ .completed) : ¬Edited w' d.tableId := by
  cases h with
  | refused _ => exact absurd hst (hfirst job hjob rfl)
  | createTable _ =>
    rcases (mem_enqueue job).mp hjob with hjob | rfl
    · exact absurd hst (hfirst job hjob rfl)
    · cases hst
  | fieldEdit _ =>
    rcases (mem_enqueue (n := 1) job).mp hjob with hjob | rfl
    · exact absurd hst (hfirst job hjob rfl)
    · cases hst
  | createRow _ _ _ => exact absurd hst (hfirst job hjob rfl)
  | updateRow _ _ _ => exact absurd hst (hfirst job hjob rfl)
  | @attempt job₀ faults mem unfinished =>
    have ha := Job.run_attempted env job₀ faults w.db
    rcases (mem_setJob ha mem job).mp hjob with rfl | ⟨hjob, -⟩
    · obtain ⟨job₁, hnext, hid₁⟩ := hseq
      have h₁ := hr.job_eq mem (List.mem_of_find?_eq_some hnext) hid₁
      subst h₁
      have hd₁ := ha.data.symm.trans hd
      rintro ⟨k, hk, dk, hdk, hidk, hne⟩
      rcases (mem_setJob ha mem k).mp hk with rfl | ⟨hk, -⟩
      · rw [ha.data, hd₁] at hdk
        cases hdk
      · exact hne (ho.edits_untried hnext hd₁ hk hdk hidk)
    · exact absurd hst (hfirst job hjob rfl)

/-- In every run a registered table was made by the job that registered it if and
only if its name is none of the provisioned tables. When jobs run one after the
other, that also decides whether a create-table job completes with a table of its
own that has exactly the declared columns. -/
theorem created_tables_owned (env : Env) (schema : String) (rows : String → List Row) :
    (∀ w, Reach (step env) (fun _ _ => True) (provisioned schema rows) w →
      ∀ m ∈ w.db.metaTables, (∃ job ∈ w.jobs, job.data.tableId = m.id ∧ Owns w job m) ↔
        m.name ∉ (seedTables schema rows).keys) ∧
    ∀ w e w', Reach (step env) Sequential (provisioned schema rows) w → Sequential w e →
      step env w e = some w' →
      ∀ job ∈ w'.jobs, ∀ d, job.data = .createTable d → job.state = .completed →
        (∀ k ∈ w.jobs, k.id = job.id → k.state ≠ .completed) →
        ∃ m ∈ w'.db.metaTables, m.id = d.tableId ∧ m.name = d.tableName ∧
          ((∃ t, w'.db.tables.lookup m.name = some t ∧ t.createdBy = some job.id ∧
            m.name ∉ job.tablesAtAcceptance ∧ Layout d.fields t.columns) ↔
              d.tableName ∉ (seedTables schema rows).keys) := by
  have hby : ∀ n t, (seedTables schema rows).lookup n = some t → t.createdBy = none :=
    fun n t h => seedTables_createdBy h
  refine ⟨fun w h m hm => ?_, fun w e w' h hseq hs job hjob d hd hst hfirst => ?_⟩
  · have hi := OwnershipInvariant.reach hby h
    exact ⟨fun ⟨_, _, _, hown⟩ => hi.free_of_owns hown, fun hfree => hi.owner hm hfree⟩
  · have hi := OwnershipInvariant.reach hby h
    have htr := transition_of_step hs
    have hi' := hi.transition htr
    obtain ⟨m, hm, hid, hn, hown⟩ := hi'.completed_owner hjob hd hst
    refine ⟨m, hm, hid, hn, fun ⟨t, ht, hj, _⟩ hmem => ?_, fun hfree => ?_⟩
    · rw [← hn] at hmem
      rw [(hi'.ownership.seeded m.name t ht).mpr hmem] at hj
      cases hj
    · rw [← hn] at hfree
      have ho := inOrder_reach hby (fun _ _ hk => hk) h
      have hne := unedited_of_completing hi.registered ho hseq htr hjob hd hst hfirst
      obtain ⟨⟨d', hd', -, -, t, ht, hj, hl⟩, hnew⟩ := hown hfree
      have he := hd.symm.trans hd'
      cases he
      rw [← hid] at hne
      exact ⟨t, ht, hj, hnew, hl hne⟩

/-- A table named `name` with one field, and the first attempt of its job. -/
def createRun (name : String) : List Event :=
  [.createTable { name := name, description := none, bytes := 60,
                  fields_ne := List.cons_ne_nil _ _
                  fields := [{ name := "color", dataType := .STRING, required := none,
                               config := none, not_relation := by decide }] },
    .attempt 0 []]

theorem created_tables_owned_colors :
    ∃ w, runAll (step plainEnv) (provisioned "tenant_a" fun _ => []) (createRun "colors") = some w ∧
      ∀ m ∈ w.db.metaTables, (∃ job ∈ w.jobs, job.data.tableId = m.id ∧ Owns w job m) ↔
        m.name ∉ (seedTables "tenant_a" fun _ => []).keys := by
  have hrun : (runAll (step plainEnv) (provisioned "tenant_a" fun _ => [])
      (createRun "colors")).isSome := by
    decide +kernel
  obtain ⟨w, hw⟩ := Option.isSome_iff_exists.mp hrun
  exact ⟨w, hw, (created_tables_owned plainEnv "tenant_a" fun _ => []).1 w
    (.of_runAll (.of_labels (fun _ _ _ => trivial) _) hw)⟩

/-- A completed create-table job beside registered tables that nobody made. -/
def adopted (w : World) : Bool :=
  (w.jobs.any fun job => job.state == .completed && match job.data with
    | .createTable _ => true
    | .fieldEdit _ => false) &&
  w.db.metaTables.all fun m => (w.db.tables.lookup m.name).all fun t => t.createdBy.isNone

/-- A create-table job named after a seed table completes on a table that was
there before it. -/
theorem seed_table_adopted :
    ¬ ∀ (env : Env) (schema : String) (rows : String → List Row) (w : World),
      Reach (step env) Sequential (provisioned schema rows) w →
        ∀ job ∈ w.jobs, ∀ d, job.data = .createTable d → job.state = .completed →
          ∃ m ∈ w.db.metaTables, m.id = d.tableId ∧ Owns w job m := by
  intro hall
  have hrun : ((runChecked (step plainEnv) sequentialCheck (provisioned "tenant_a" fun _ => [])
      (createRun "statuses")).any adopted) = true := by
    decide +kernel
  obtain ⟨w, hw, hadopted⟩ := (Option.any_eq_true _ _).mp hrun
  obtain ⟨hjobs, hmeta⟩ := Bool.and_eq_true_iff.mp hadopted
  obtain ⟨job, hjob, hstate⟩ := List.any_eq_true.mp hjobs
  obtain ⟨hst, hcreate⟩ := Bool.and_eq_true_iff.mp hstate
  obtain ⟨d, hd⟩ : ∃ d, job.data = .createTable d := by
    cases hd : job.data with
    | createTable d => exact ⟨d, rfl⟩
    | fieldEdit d =>
      rw [hd] at hcreate
      cases hcreate
  obtain ⟨m, hm, -, hown⟩ := hall plainEnv "tenant_a" (fun _ => []) w
    (.of_runChecked (fun _ _ h => sequential_of_check h) hw) job hjob d hd (by simpa using hst)
  obtain ⟨-, -, -, -, t, ht, hj, -⟩ := hown.made
  have hnone := List.all_eq_true.mp hmeta m hm
  rw [ht, Option.all_some, hj] at hnone
  cases hnone

end Flexi.DynamicTables
