import Flexi.DynamicTables.SchemaCoherence
import Flexi.DynamicTables.TableLayout

/-!
# Foreign-key columns and conversions

A `modify` edit is checked against `_meta_fields` when its request is built. What its
column is when the job gets there depends on the steps queued beside it.
-/

namespace Flexi.DynamicTables.Interleaving
open Flexi.Library

/-! ### The claim and its condition -/

/-- A job that has completed has replaced no foreign-key column. -/
def RelationsKept (s : Shared) : Prop :=
  ∀ i job, s.jobs[i]? = some job → job.phase = .completed → ∀ column, (i, column) ∉ s.replaced

/-- The columns a step converts, or takes the place of one with. -/
def convertedBy : FieldEditStep → List String
  | .cutoverColumn source shadow _ => [source, shadow]
  | _ => []

def relationAddedBy : FieldEditStep → Option String
  | .addRelationColumn column _ _ => some column
  | _ => none

def converted (d : FieldEditJobData) : List String := d.steps.flatMap convertedBy

def relationsAdded (d : FieldEditJobData) : List String := d.steps.filterMap relationAddedBy

def editOf : DdlJobData → Option FieldEditJobData
  | .createTable _ => none
  | .fieldEdit data => some data

/-- The field-edit jobs among the waiting, active and delayed ones. -/
def pendingEdits (pending : List DdlJobData) : List FieldEditJobData := pending.filterMap editOf

/-- The job a request is about to queue. -/
def queuedBy (env : Env) (s : Shared) : Request → Option FieldEditJobData
  | .building edit [] =>
    if countFieldAdditions (edit.job s.nextUuid) = 0 then some (edit.job s.nextUuid) else none
  | .admitting edit ⟨some counted, some listed⟩ =>
    if (enqueueFieldEditWithinLimit env.cfg counted listed (edit.job s.nextUuid)).isOk then
      some (edit.job s.nextUuid)
    else none
  | _ => none

/-- In the jobs `edits` of the table `name` no conversion meets a foreign key, as the table
is or as one of them will make it. -/
def Apart (db : TenantSchema) (name : String) (edits : List FieldEditJobData) : Prop :=
  ∀ d ∈ edits, d.tableName = name → ∀ column ∈ converted d,
    isForeignKey db name column = false ∧
      ∀ d' ∈ edits, d'.tableName = name → column ∉ relationsAdded d'

instance (db : TenantSchema) (name : String) (edits : List FieldEditJobData) :
    Decidable (Apart db name edits) :=
  inferInstanceAs (Decidable (∀ d ∈ edits, d.tableName = name → ∀ column ∈ converted d,
    isForeignKey db name column = false ∧
      ∀ d' ∈ edits, d'.tableName = name → column ∉ relationsAdded d'))

/-- A job is queued only when it leaves the pending jobs of its table apart. -/
def QueuesApart (env : Env) (b : Backend) : Move → Prop
  | .next i => ∀ r data, b.requests[i]? = some r → queuedBy env b.shared r = some data →
      Apart b.shared.db data.tableName (data :: pendingEdits b.shared.pending)
  | _ => True

/-! ### Where foreign keys come from -/

section ForeignKeys

variable {pg : Postgres} {db db' : TenantSchema} {name n c : String} {t t' : PhysTable}

theorem isForeignKey_iff : isForeignKey db n c = true ↔
    ∃ t D, db.tables.lookup n = some t ∧ t.columns.lookup c = some D ∧
        D.references.isSome = true := by
  rw [isForeignKey, Option.any_eq_true]
  constructor
  · rintro ⟨D, hD, href⟩
    obtain ⟨t, ht, hD⟩ := Option.bind_eq_some_iff.mp hD
    exact ⟨t, D, ht, hD, href⟩
  · rintro ⟨t, D, ht, hD, href⟩
    exact ⟨D, Option.bind_eq_some_iff.mpr ⟨t, ht, hD⟩, href⟩

theorem isForeignKey_congr (h : db'.tables = db.tables) :
    isForeignKey db' n c = isForeignKey db n c := by
  rw [isForeignKey, isForeignKey, h]

/-- Each column after a cutover was there before, in its place or as the shadow. -/
theorem cutover_lookup {source shadow final : String} (ht : db.tables.lookup name = some t)
    (h : executeStep pg name (.cutoverColumn source shadow final) db = .ok db') :
    ∃ t', TableChange name t t' db db' ∧ ∀ c D, t'.columns.lookup c = some D →
      t.columns.lookup c = some D ∨ c = final ∧ t.columns.lookup shadow = some D := by
  simp only [executeStep, hasColumn_of_lookup ht] at h
  split at h
  · cases h
    exact ⟨t, .refl ht, fun c D hD => .inl hD⟩
  obtain ⟨db₁, t₁, hch, hback, h⟩ : ∃ db₁ t₁, TableChange name t t₁ db db₁ ∧
      (∀ c D, t₁.columns.lookup c = some D → t.columns.lookup c = some D) ∧
      (if (t.columns.lookup shadow).isSome = true then db₁.renameColumn name shadow final else
          pure db₁) =
        .ok db' := by
    split at h
    · cases hd : db.dropColumn name source with
      | error e => simp [hd, bind, Except.bind] at h
      | ok db₁ =>
        rw [hd] at h
        obtain ⟨t₀, t₁, hch, hk, hgone⟩ := dropColumn_ok hd
        have he : t₀ = t := Option.some.inj (hch.before.symm.trans ht)
        subst he
        refine ⟨db₁, t₁, hch, fun c D hD => ?_, h⟩
        by_cases hc : c = source
        · subst hc
          rw [hgone] at hD
          cases hD
        · rw [hk.columns c (by simpa using hc)] at hD
          exact hD
    · exact ⟨db, t, .refl ht, fun c D hD => hD, h⟩
  split at h
  · obtain ⟨t₀, t', d, hch', hk, hold, hnew, hgone⟩ := renameColumn_ok h
    have he : t₀ = t₁ := Option.some.inj (hch'.before.symm.trans hch.after)
    subst he
    refine ⟨t', hch.trans hch', fun c D hD => ?_⟩
    by_cases hf : c = final
    · subst hf
      rw [hnew] at hD
      cases hD
      exact .inr ⟨rfl, hback _ _ hold⟩
    · by_cases hs : c = shadow
      · subst hs
        rw [hgone hf] at hD
        cases hD
      · rw [hk.columns c (by simp [hs, hf])] at hD
        exact .inl (hback c D hD)
  · cases h
    exact ⟨t₁, hch, fun c D hD => .inl (hback c D hD)⟩

/-- A step makes a foreign key by adding a relation, or by moving one. -/
theorem isForeignKey_of_step {step : FieldEditStep} (h : executeStep pg name step db = .ok db')
    (hfk : isForeignKey db' n c = true) : isForeignKey db n c = true ∨
      n = name ∧ (relationAddedBy step = some c ∨
        ∃ shadow ∈ convertedBy step, isForeignKey db name shadow = true) := by
  cases ht : db.tables.lookup name with
  | none =>
    rw [executeStep_absent ht h] at hfk
    exact .inl hfk
  | some t =>
    obtain ⟨u, D, hu, hD, href⟩ := isForeignKey_iff.mp hfk
    by_cases hn : n = name
    · subst hn
      -- the column was there before, or the step has made it
      have hold (hold : t.columns.lookup c = some D) : isForeignKey db n c = true :=
        isForeignKey_iff.mpr ⟨t, D, ht, hold, href⟩
      have hsame {t' : PhysTable} (hch : TableChange n t t' db db') :
          t'.columns.lookup c = some D := by
        rw [hch.after] at hu
        cases hu
        exact hD
      have htyped {type : PgType} {required : Bool}
          (h : some (typedColumn type required) = some D) : False := by
        cases h
        cases href
      have hadd {column : String} {t' : PhysTable} (hch : TableChange n t t' db db')
          (hk : KeepsOutside [column] t t') (hnew : t' = t ∧ (t.columns.lookup column).isSome ∨
            ∃ type required, t'.columns.lookup column = some (typedColumn type required)) :
          isForeignKey db n c = true := by
        have hD' := hsame hch
        by_cases hc : c = column
        · subst hc
          rcases hnew with ⟨rfl, -⟩ | ⟨type, required, hcol⟩
          · exact hold hD'
          · exact (htyped (hcol.symm.trans hD')).elim
        · rw [hk.columns c (by simpa using hc)] at hD'
          exact hold hD'
      cases step with
      | addColumn column dataType required config =>
        obtain ⟨t', hch, hk, hnew⟩ := executeStep_addColumn ht h
        exact .inl (hadd hch hk (hnew.imp id fun ⟨type, _, _, hcol⟩ => ⟨type, _, hcol⟩))
      | addShadowColumn column dataType required config =>
        obtain ⟨t', hch, hk, hnew⟩ := executeStep_addShadowColumn ht h
        exact .inl (hadd hch hk (hnew.imp id fun ⟨type, _, _, hcol⟩ => ⟨type, _, hcol⟩))
      | addRelationColumn column target required =>
        obtain ⟨t', hch, hk, -⟩ := executeStep_addRelationColumn ht h
        by_cases hc : c = column
        · exact .inr ⟨rfl, .inl (congrArg some hc.symm)⟩
        · have hD' := hsame hch
          rw [hk.columns c (by simpa using hc)] at hD'
          exact .inl (hold hD')
      | dropColumn column =>
        obtain ⟨t', hch, hk, hgone⟩ := executeStep_dropColumn ht h
        have hD' := hsame hch
        by_cases hc : c = column
        · rw [hc, hgone] at hD'
          cases hD'
        · rw [hk.columns c (by simpa using hc)] at hD'
          exact .inl (hold hD')
      | backfillColumn source shadow =>
        obtain ⟨t', hch, -, hcols, -, -⟩ := executeStep_backfillColumn ht h
        have hD' := hsame hch
        rw [hcols] at hD'
        exact .inl (hold hD')
      | cutoverColumn source shadow final =>
        obtain ⟨t', hch, hback⟩ := cutover_lookup ht h
        rcases hback c D (hsame hch) with hD' | ⟨-, hD'⟩
        · exact .inl (hold hD')
        · exact .inr ⟨rfl, .inr ⟨shadow, by simp [convertedBy], isForeignKey_iff.mpr
              ⟨t, D, ht, hD', href⟩⟩⟩
    · obtain ⟨t', hch, -⟩ := executeStep_frame ht h
      rw [hch.others n hn] at hu
      exact .inl (isForeignKey_iff.mpr ⟨u, D, hu, hD, href⟩)

theorem declared_references {fields : List CreateTableJobField}
    {declared : List (Σ _ : String, ColumnDef)}
    (h : List.Forall₂ DeclaredColumn fields declared) : ∀ c ∈ declared, c.2.references = none := by
  induction h with
  | nil => simp
  | cons hc _ ih =>
    intro x hx
    rcases List.mem_cons.mp hx with rfl | hx
    · obtain ⟨-, type, -, htyped⟩ := hc
      rw [htyped]
      rfl
    · exact ih x hx

theorem created_references {fields : List CreateTableJobField}
    {cols : List (Σ _ : String, ColumnDef)}
    (h : createTableColumns fields = .ok cols) {D : ColumnDef}
    (hD : cols.toAList.lookup c = some D) :
    D.references = none := by
  obtain ⟨declared, hdeclared, rfl⟩ := createTableColumns_ok h
  rw [AList.lookup_to_alist] at hD
  have hmem := List.of_mem_dlookup hD
  rw [List.mem_append, List.mem_append] at hmem
  rcases hmem with (hmem | hmem) | hmem
  · simp only [List.mem_cons, List.not_mem_nil, or_false, Sigma.mk.injEq, heq_eq_eq] at hmem
    rcases hmem with ⟨-, rfl⟩ | ⟨-, rfl⟩ <;> rfl
  · exact declared_references hdeclared _ hmem
  · simp only [List.mem_cons, List.not_mem_nil, or_false, Sigma.mk.injEq, heq_eq_eq] at hmem
    rcases hmem with ⟨-, rfl⟩ | ⟨-, rfl⟩ <;> rfl

theorem isForeignKey_of_created {d : CreateTableJobData} (h : createTableBody d db = .ok db')
    (hfk : isForeignKey db' n c = true) : isForeignKey db n c = true := by
  obtain ⟨db₁, hmade, h⟩ := createTableBody_parts h
  obtain ⟨db₂, hup, h⟩ := except_bind_ok.mp h
  have htables : db'.tables = db₁.tables :=
    (upsertFields_ok h).tables.trans (upsertMetaTable_ok hup).1
  rw [isForeignKey_congr htables] at hfk
  rcases hmade with rfl | ⟨cols, hcols, -, rfl⟩
  · exact hfk
  · obtain ⟨u, D, hu, hD, href⟩ := isForeignKey_iff.mp hfk
    by_cases hn : n = d.tableName
    · subst hn
      rw [TenantSchema.setTable_lookup] at hu
      cases hu
      rw [created_references hcols hD] at href
      cases href
    · rw [TenantSchema.setTable_lookup_ne _ _ hn] at hu
      exact isForeignKey_iff.mpr ⟨u, D, hu, hD, href⟩

theorem isForeignKey_of_rows (h : RowsWritten name db db') (hfk : isForeignKey db' n c = true) :
    isForeignKey db n c = true := by
  cases h with
  | none => exact hfk
  | @some t t' ht hcols =>
    obtain ⟨u, D, hu, hD, href⟩ := isForeignKey_iff.mp hfk
    by_cases hn : n = name
    · subst hn
      rw [TenantSchema.setTable_lookup] at hu
      cases hu
      exact isForeignKey_iff.mpr ⟨t, D, ht, hcols ▸ hD, href⟩
    · rw [TenantSchema.setTable_lookup_ne _ _ hn] at hu
      exact isForeignKey_iff.mpr ⟨u, D, hu, hD, href⟩

end ForeignKeys

/-! ### The invariant -/

theorem mem_pendingEdits {s : Shared} {d : FieldEditJobData} : d ∈ pendingEdits s.pending ↔
    ∃ job ∈ s.jobs, job.unfinished = true ∧ job.data = .fieldEdit d := by
  simp only [pendingEdits, Shared.pending, List.mem_filterMap, List.mem_map, List.mem_filter]
  constructor
  · rintro ⟨data, ⟨job, ⟨hjob, hunfinished⟩, rfl⟩, hd⟩
    refine ⟨job, hjob, hunfinished, ?_⟩
    revert hd
    cases job.data with
    | createTable data => simp [editOf]
    | fieldEdit data => simp [editOf]
  · rintro ⟨job, hjob, hunfinished, hd⟩
    exact ⟨job.data, ⟨job, ⟨hjob, hunfinished⟩, rfl⟩, by rw [hd]; rfl⟩

/-- A job that has a step among its tasks is the field edit the step belongs to. -/
theorem data_of_step {data : FieldEditJobData} {s : FieldEditStep} {job : DdlJobData}
    (h : .step data s ∈ tasks job) : job = .fieldEdit data ∧ s ∈ data.steps := by
  cases job with
  | createTable other => simp [tasks] at h
  | fieldEdit other =>
    simp only [tasks, List.mem_append, List.mem_flatMap, List.mem_cons, List.not_mem_nil, or_false,
      reduceCtorEq, Task.step.injEq] at h
    obtain ⟨step, hstep, ⟨rfl, rfl⟩⟩ := h
    exact ⟨rfl, hstep⟩

structure PendingApart (env : Env) (s : Shared) : Prop where
  aligned : ∀ job ∈ s.jobs, job.Aligned (worker env)
  apart : ∀ name, Apart s.db name (pendingEdits s.pending)
  replaced : s.replaced = []

namespace PendingApart

variable {env : Env} {s s' : Shared} {b b' : Backend}

theorem of_subset {db' : TenantSchema} {name : String} {edits edits' : List FieldEditJobData}
    (h : Apart s.db name edits) (hsub : ∀ d ∈ edits', d ∈ edits)
    (hnew : ∀ d ∈ edits, d.tableName = name → ∀ c ∈ converted d, isForeignKey db' name c = true →
      isForeignKey s.db name c = true) : Apart db' name edits' := by
  intro d hd hname c hc
  obtain ⟨hfree, hadded⟩ := h d (hsub d hd) hname c hc
  refine ⟨?_, fun d' hd' => hadded d' (hsub d' hd')⟩
  rw [← Bool.not_eq_true]
  intro hfk
  rw [hnew d (hsub d hd) hname c hc hfk] at hfree
  cases hfree

theorem not_made (h : PendingApart env s) {data : FieldEditJobData} {step : FieldEditStep}
    {db : TenantSchema}
    (hdata : data ∈ pendingEdits s.pending) (hstep : step ∈ data.steps)
    (hrun : executeStep env.pg data.tableName step s.db = .ok db) {name : String} :
    ∀ d ∈ pendingEdits s.pending, d.tableName = name →
        ∀ c ∈ converted d, isForeignKey db name c = true →
      isForeignKey s.db name c = true := by
  intro d hd hname c hc hfk
  rcases isForeignKey_of_step hrun hfk with hold | ⟨rfl, hrelation | ⟨shadow, hshadow, hmoved⟩⟩
  · exact hold
  · have hadded : c ∈ relationsAdded data := List.mem_filterMap.mpr ⟨step, hstep, hrelation⟩
    exact absurd hadded ((h.apart _ d hd hname c hc).2 data hdata rfl)
  · have hconverted : shadow ∈ converted data := List.mem_flatMap.mpr ⟨step, hstep, hshadow⟩
    rw [(h.apart _ data hdata rfl shadow hconverted).1] at hmoved
    cases hmoved

theorem replacedBy_nil (h : PendingApart env s) {i : ℕ} {job : Queued DdlJobData Task} {t : Task}
    {rest : List Task} (hjob : s.jobs[i]? = some job) (hphase : job.phase = .active (t :: rest)) :
    replacedBy s.db i (some t) = [] := by
  have hmem := List.mem_of_getElem? hjob
  have htask := (h.aligned job hmem).head_mem hphase
  cases t with
  | step data step =>
    cases step with
    | cutoverColumn source shadow final =>
      obtain ⟨hdata, hstep⟩ := data_of_step htask
      have hunfinished : job.unfinished = true := by rw [Queued.unfinished, hphase]; rfl
      have hpending : data ∈ pendingEdits s.pending :=
        mem_pendingEdits.mpr ⟨job, hmem, hunfinished, hdata⟩
      have hconverted : source ∈ converted data :=
        List.mem_flatMap.mpr ⟨_, hstep, by simp [convertedBy]⟩
      have hfree := (h.apart _ data hpending rfl source hconverted).1
      simp [replacedBy, hfree]
    | _ => rfl
  | _ => rfl

theorem replacements_nil (h : PendingApart env s) (w : Work String) : replacements s w = [] := by
  cases w with
  | commit i =>
    show replacedBy s.db i ((s.jobs[i]?.bind Queued.head).map Prod.fst) = []
    cases hjob : s.jobs[i]? with
    | none => rfl
    | some job =>
      rw [Option.bind_some]
      cases hhead : job.head with
      | none => rfl
      | some head => exact h.replacedBy_nil hjob (Queued.head_eq_some.mp hhead)
  | take | fail | complete => rfl

theorem work (h : PendingApart env s) {i : ℕ} {job job' : Queued DdlJobData Task} {w : Work String}
    {db : TenantSchema} (hjob : s.jobs[i]? = some job)
    (hworked : Worked (worker env) s.db i job w job' db) :
    PendingApart env
      { s with db := db, jobs := s.jobs.set i job', replaced :=
        s.replaced ++ replacements s w } := by
  have hmem := List.mem_of_getElem? hjob
  have hsub : ∀ d ∈ pendingEdits (Shared.pending { s with jobs := s.jobs.set i job' }),
      d ∈ pendingEdits s.pending := by
    intro d hd
    obtain ⟨k, hk, hunfinished, hkd⟩ := mem_pendingEdits.mp hd
    rcases mem_set_job hk with rfl | hk
    · exact mem_pendingEdits.mpr ⟨job, hmem, hworked.unfinished, hworked.data ▸ hkd⟩
    · exact mem_pendingEdits.mpr ⟨k, hk, hunfinished, hkd⟩
  refine ⟨fun k hk => ?_, fun name => of_subset (h.apart name) hsub ?_, ?_⟩
  · rcases mem_set_job hk with rfl | hk
    · exact hworked.aligned (h.aligned job hmem)
    · exact h.aligned k hk
  · cases hworked with
    | take | complete => exact fun _ _ _ _ _ hfk => hfk
    | @commit t rest db hphase hrun =>
      have htask := (h.aligned job hmem).head_mem hphase
      cases t with
      | createTable data => exact fun _ _ _ _ _ hfk => isForeignKey_of_created hrun hfk
      | step data step =>
        obtain ⟨hdata, hstep⟩ := data_of_step htask
        have hunfinished : job.unfinished = true := by rw [Queued.unfinished, hphase]; rfl
        have hpending : data ∈ pendingEdits s.pending :=
          mem_pendingEdits.mpr ⟨job, hmem, hunfinished, hdata⟩
        exact h.not_made hpending hstep hrun
      | effects data =>
        intro _ _ _ _ _ hfk
        rw [isForeignKey_congr (Catalog.applyEffects_frame hrun).1] at hfk
        exact hfk
      | record row =>
        obtain ⟨rows, rfl⟩ := insertMigration_ok hrun
        exact fun _ _ _ _ _ hfk => hfk
    | fail error noted hphase =>
      intro _ _ _ _ _ hfk
      split at hfk
      · obtain ⟨rows, hnote⟩ := note_eq env _ error s.db
        rw [hnote] at hfk
        exact hfk
      · exact hfk
  · rw [h.replaced, h.replacements_nil]
    rfl

theorem add (h : PendingApart env s) (data : FieldEditJobData)
    (hapart : Apart s.db data.tableName (data :: pendingEdits s.pending)) :
    PendingApart env (s.add (.fieldEdit data) 1) := by
  have hpending : pendingEdits
      (s.add (.fieldEdit data) 1).pending = pendingEdits s.pending ++ [data] := by
    rw [pending_append, pendingEdits, List.filterMap_append]
    rfl
  refine ⟨aligned_add h.aligned _ _, fun name => ?_, h.replaced⟩
  rw [hpending]
  by_cases hname : name = data.tableName
  · intro d hd hdname c hc
    rw [hname] at hdname ⊢
    have hmem {k : FieldEditJobData} (hk : k ∈ pendingEdits s.pending ++ [data]) :
        k ∈ data :: pendingEdits s.pending := by
      rw [List.mem_append, List.mem_singleton] at hk
      rw [List.mem_cons]
      exact hk.symm
    obtain ⟨hfree, hadded⟩ := hapart d (hmem hd) hdname c hc
    exact ⟨hfree, fun d' hd' => hadded d' (hmem hd')⟩
  · -- the new job is on another table
    have hmem {k : FieldEditJobData} (hk : k ∈ pendingEdits s.pending ++ [data])
        (hkname : k.tableName = name) :
        k ∈ pendingEdits s.pending := by
      rw [List.mem_append, List.mem_singleton] at hk
      rcases hk with hk | rfl
      · exact hk
      · exact absurd hkname.symm hname
    intro d hd hdname c hc
    obtain ⟨hfree, hadded⟩ := h.apart name d (hmem hd hdname) hdname c hc
    exact ⟨hfree, fun d' hd' hd'name => hadded d' (hmem hd' hd'name) hd'name⟩

theorem next (h : PendingApart env s) {free : Guardrail → Bool} {r r' : Request}
    (hapart : ∀ data, queuedBy env s r = some data →
      Apart s.db data.tableName (data :: pendingEdits s.pending))
    (hnext : Advanced env free s r r' s') : PendingApart env s' := by
  cases hnext with
  | tableQueued hlimit =>
    refine ⟨aligned_add h.aligned _ _, fun name => ?_, h.replaced⟩
    have hpending {data : CreateTableJobData} :
        pendingEdits (s.add (.createTable data) 2).pending = pendingEdits s.pending := by
      rw [pending_append, pendingEdits, List.filterMap_append]
      exact List.append_nil _
    rw [hpending]
    exact h.apart name
  | editQueued hnone => exact h.add _ (hapart _ (by simp [queuedBy, hnone]))
  | editAdmitted hlimit =>
      exact h.add _ (hapart _ (by simp [queuedBy, hlimit, Except.isOk, Except.toBool]))
  | served hstatement =>
    exact ⟨h.aligned, fun name => of_subset (h.apart name) (fun d hd => hd)
      fun _ _ _ _ _ hfk => isForeignKey_of_rows (statement_written hstatement) hfk, h.replaced⟩
  | ended | prepared | tableFound | built | locked | unlocked | invalidated | rowTable | rowFound
      | hit
  | missed | fetched | cached => exact ⟨h.aligned, h.apart, h.replaced⟩

theorem step (h : PendingApart env b.shared) {m : Move} (hok : QueuesApart env b m)
    (hs : Stepped env b m b') : PendingApart env b'.shared := by
  cases hs with
  | next hr hnext => exact h.next (fun data hdata => hok _ data hr hdata) hnext
  | work hjob hworked => exact h.work hjob hworked
  | receive | count | list | abort => exact h

end PendingApart

theorem pendingApart_started (env : Env) (schema : String) (tables : Tables) :
    PendingApart env (started schema tables).shared where
  aligned job hjob := by cases hjob
  apart name d hd := by cases hd
  replaced := rfl

/-- In a run that queues only jobs which leave the pending ones apart, no completed job has
replaced a foreign-key column. -/
theorem relations_kept {env : Env} {schema : String} {tables : Tables} {b : Backend}
    (h : Reach (step env) (QueuesApart env) (started schema tables) b) : RelationsKept b.shared :=
      by
  have hpending : PendingApart env b.shared :=
    h.invariant (I := fun b => PendingApart env b.shared) (pendingApart_started env schema tables)
      fun _ _ _ _ hp hok hs => hp.step hok (stepped_of_step hs)
  intro i job _ _ column hmem
  rw [hpending.replaced] at hmem
  cases hmem

/-! ### A column that is no relation yet -/

/-- `plainEnv` with the cast from integers to numerics. -/
def relationEnv : Env :=
  { plainEnv with pg := { plainEnv.pg with
      hasAssignmentCast := fun s d =>
          s == d || s == .varchar255 && d == .text || s == .integer && d == .decimal } }

def queuesApart (b : Backend) : Move → Bool
  | .next i => (b.requests[i]?.bind (queuedBy relationEnv b.shared)).all fun data =>
      decide (Apart b.shared.db data.tableName (data :: pendingEdits b.shared.pending))
  | _ => true

theorem queuesApart.condition {b : Backend} {m : Move} (h : queuesApart b m = true) :
    QueuesApart relationEnv b m := by
  cases m with
  | next i =>
    intro r data hr hdata
    rw [queuesApart, hr, Option.bind_some, hdata] at h
    exact of_decide_eq_true h
  | receive | count | list | abort | work => trivial

/-- The request at `i` converts a field. -/
def modifyRun (i : ℕ) (tableId : Uuid) (dto : UpdateFieldDto) : List Move :=
  [.receive (.fieldEdit tableId dto), .next i, .next i, .next i, .next i]

theorem relations_kept_title : ∃ b : Backend,
    (b.shared.db.tables.lookup "orders").any (fun t => (t.columns.lookup "title").any fun D =>
        D.type == .text) = true ∧
      RelationsKept b.shared := by
  have hrun : ((runChecked (step relationEnv) queuesApart (started "tenant_a" ∅)
      (createRun 0 ordersTable ++ workRun 0 2 ++ modifyRun 1 1
          (modifyField "title" .TEXT) ++ workRun 1 7)).any
        fun b => (b.shared.db.tables.lookup "orders").any fun t =>
          (t.columns.lookup "title").any fun D => D.type == .text) = true := by
    decide +kernel
  obtain ⟨b, hb, htext⟩ := (Option.any_eq_true _ _).mp hrun
  exact ⟨b, htext, relations_kept (.of_runChecked (fun _ _ h => queuesApart.condition h) hb)⟩

/-- One request adds the relation `owner` and converts `owner`. -/
def addAndModify : UpdateFieldDto :=
  { edits := [{ operation := .add, name := "owner", dataType := some .RELATION, required := none,
                config := none, relatedTableId := some 1 },
              { operation := .modify, name := "owner", dataType := some .NUMBER, required := none,
                config := none, relatedTableId := none }]
    bytes := 120, edits_ne := List.cons_ne_nil _ _ }

def addAndModifyRun : List Move :=
  createRun 0 ordersTable ++ workRun 0 2 ++
    [.receive (.fieldEdit 1 addAndModify), .next 1, .next 1, .next 1, .next 1, .count 1, .list 1,
        .next 1] ++
    workRun 1 9

/-- The job at 1 has completed and has replaced a foreign-key column. -/
def relationReplaced (s : Shared) : Bool :=
  s.jobs[1]?.any fun job => match job.phase with
    | .completed => s.replaced.contains (1, "owner")
    | _ => false

theorem relation_replaced : ¬ ∀ (env : Env) (schema : String) (tables : Tables) (b : Backend),
    Reach (step env) (fun _ _ => True) (started schema tables) b → RelationsKept b.shared := by
  intro hall
  have hrun : ((runAll (step relationEnv) (started "tenant_a" ∅) addAndModifyRun).any fun b =>
      relationReplaced b.shared) = true := by
    decide +kernel
  obtain ⟨b, hb, hreplaced⟩ := (Option.any_eq_true _ _).mp hrun
  have hkept := hall relationEnv "tenant_a" ∅ b
      (.of_runAll (.of_labels (fun _ _ _ => trivial) _) hb)
  obtain ⟨job, hjob, hcase⟩ := (Option.any_eq_true _ _).mp hreplaced
  split at hcase
  · rename_i hphase
    exact hkept 1 job hjob hphase "owner" (List.contains_iff_mem.mp hcase)
  · cases hcase

end Flexi.DynamicTables.Interleaving
