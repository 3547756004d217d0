import Flexi.DynamicTables.Statements
import Flexi.Library.Outcome
import Flexi.DynamicTables.System
import Mathlib.Logic.Relation

/-!
# What a job and a step can do

`JobWrite` lists the writes an attempt of a job may commit, `Transition` the
shapes a step of the tenant may have. Invariants are proved against these two,
not against the worker's and the service's definitions.
-/

namespace Flexi.DynamicTables
open Flexi.Library Relation

/-! ### Writes of a job -/

/-- One committed write of the job with payload `data`. -/
inductive JobWrite (pg : Postgres) : DdlJobData → TenantSchema → TenantSchema → Prop
  | migration {data : DdlJobData} {db : TenantSchema} {rows : List MetaMigration} :
      JobWrite pg data db { db with metaMigrations := rows }
  | create {d : CreateTableJobData} {db db' : TenantSchema} :
      createTableBody d db = .ok db' → JobWrite pg (.createTable d) db db'
  | step {d : FieldEditJobData} {s : FieldEditStep} {db db' : TenantSchema} : s ∈ d.steps →
      executeStep pg d.tableName s db = .ok db' → JobWrite pg (.fieldEdit d) db db'
  | effects {d : FieldEditJobData} {db db' : TenantSchema} :
      d.metadataEffects.foldlM (applyEffect d.tableId) db = .ok db' →
      JobWrite pg (.fieldEdit d) db db'

/-- The stores an attempt can leave behind when it started in `db`. -/
abbrev Written (pg : Postgres) (data : DdlJobData) (db : TenantSchema) (s : TxState TenantSchema) :
    Prop := ReflTransGen (JobWrite pg data) db s.store

section Writes

variable {pg : Postgres} {data : DdlJobData} {db : TenantSchema}

/-- An assertion on the schema and the count of committed transactions. -/
abbrev Assertion := TenantSchema → ℕ → Prop

/-- Migration rows do not matter to it. -/
def Assertion.Stable (I : Assertion) : Prop :=
  ∀ db rows n, I db n → I { db with metaMigrations := rows } n

theorem recordMigration_keeps {I : Assertion} (hI : I.Stable) (row : MetaMigration) :
    TxProg.Triple (fun s => I s.store s.committed) (recordMigration row)
      (fun _ s => I s.store s.committed) fun s => I s.store s.committed := by
  refine .write ?_ fun s fs hs => hs
  intro s d fs hs hb
  split at hb
  · cases hb
  · cases hb
    exact hI _ _ _ hs

/-- The rule for a transaction followed by its migration row, with the failure
row in the handler: the shape of `processCreateTable` and of `runStep`. -/
theorem recorded_rule {I J : Assertion} (hI : I.Stable) (hJ : J.Stable)
    {body : TenantSchema → Except String TenantSchema} {done : MetaMigration}
    {failed : String → MetaMigration}
    (hb : ∀ d d' n, I d n → body d = .ok d' → J d' (n + 1)) :
    TxProg.Triple (fun s => I s.store s.committed)
      (tryCatch (do TxProg.transaction body; recordMigration done) fun error => do
        recordMigration (failed error)
        throw error)
      (fun _ s => J s.store s.committed)
      fun s => I s.store s.committed ∨ J s.store s.committed := by
  have hIJ : Assertion.Stable fun d n => I d n ∨ J d n := fun d rows n h =>
    h.imp (hI d rows n) (hJ d rows n)
  refine .tryCatch (M := fun s => I s.store s.committed ∨ J s.store s.committed) ?_ ?_
  · refine .bind (Q := fun _ s => J s.store s.committed) ?_ fun _ => ?_
    · exact .transaction (fun s d fs hs h => hb _ _ _ hs h) fun s fs hs => .inl hs
    · exact (recordMigration_keeps hJ done).conseq (fun _ h => h) (fun _ _ h => h) fun _ h => .inr h
  · intro error
    refine .bind (recordMigration_keeps hIJ (failed error)) fun _ => ?_
    exact .throw fun s hs => hs

theorem recorded_written {body : TenantSchema → Except String TenantSchema}
    {done : MetaMigration} {failed : String → MetaMigration}
    (hb : ∀ d d', body d = .ok d' → JobWrite pg data d d') :
    TxProg.Triple (Written pg data db)
      (tryCatch (do TxProg.transaction body; recordMigration done) fun error => do
        recordMigration (failed error)
        throw error)
      (fun _ => Written pg data db) (Written pg data db) := by
  have hst : Assertion.Stable fun d _ => ReflTransGen (JobWrite pg data) db d :=
    fun _ _ _ h => h.tail .migration
  exact (recorded_rule hst hst fun _ _ _ h hd => h.tail (hb _ _ hd)).conseq (fun _ h => h)
    (fun _ _ h => h) fun _ h => h.elim id id

theorem process_written (pg : Postgres) (data : DdlJobData) (db : TenantSchema) :
    TxProg.Triple (Written pg data db) (process pg data) (fun _ => Written pg data db)
      (Written pg data db) := by
  cases data with
  | createTable d => exact recorded_written fun _ _ h => .create h
  | fieldEdit d =>
    refine .bind (Q := fun _ => Written pg (.fieldEdit d) db) ?_ ?_
    · refine TxProg.Triple.forM (I := fun _ => Written pg (.fieldEdit d) db) ?_
      intro before s after hs
      exact recorded_written fun _ _ h => .step (by simp [hs]) h
    · intro _
      exact .transaction (fun s d' fs hs h => hs.tail (.effects h)) fun s fs hs => hs

end Writes

/-! ### Attempts -/

/-- What an attempt does to its job and to the schema. -/
structure Attempted (env : Env) (job : Job) (db : TenantSchema) (job' : Job) (db' : TenantSchema) :
    Prop where
  id : job'.id = job.id
  data : job'.data = job.data
  tablesAtAcceptance : job'.tablesAtAcceptance = job.tablesAtAcceptance
  attemptsMade : job'.attemptsMade = job.attemptsMade + 1
  state : job'.state ≠ .waiting
  written : ReflTransGen (JobWrite env.pg job.data) db db'

theorem Job.run_attempted (env : Env) (job : Job) (faults : List (Option String))
    (db : TenantSchema) :
    Attempted env job db (job.run env faults db).1 (job.run env faults db).2 := by
  have h := process_written env.pg job.data db
    { store := db, faults := faults, committed := 0 } .refl
  unfold Job.run
  revert h
  cases (process env.pg job.data).exec { store := db, faults := faults, committed := 0 } with
  | mk r s =>
    cases r with
    | ok a => exact fun h => ⟨rfl, rfl, rfl, rfl, by simp, h⟩
    | error e =>
      refine fun h => ⟨rfl, rfl, rfl, rfl, ?_, h⟩
      dsimp only
      split <;> simp

/-! ### Steps of the tenant -/

/-- The cache after a request that may have read the schema of a table. -/
inductive CacheRead (cfg : Config) (w : World) : ValidationSchemaCache → Prop
  | none : CacheRead cfg w w.cache
  | read {m : MetaTable} (hm : m ∈ w.db.metaTables) :
      CacheRead cfg w (getOrBuildValidationSchema cfg w.db w.cache m.id).2

inductive Transition (env : Env) (w : World) : Event → World → Prop
  | refused {e : Event} {cache : ValidationSchemaCache} (hcache : CacheRead env.cfg w cache) :
      Transition env w e { w with cache := cache }
  | createTable {dto : CreateTableDto} {d : CreateTableJobData}
      (accepted : enqueueCreateTable env.cfg w.db w.pending w.nextUuid (w.nextUuid + 1) dto =
        .ok d) :
      Transition env w (.createTable dto) (w.enqueue (.createTable d) 2)
  | fieldEdit {tableId : Uuid} {dto : UpdateFieldDto} {d : FieldEditJobData}
      (accepted : enqueueFieldEdit env.cfg w.db w.pending w.nextUuid tableId dto = .ok d) :
      Transition env w (.fieldEdit tableId dto)
        { w.enqueue (.fieldEdit d) 1 with cache := invalidateValidationSchema w.cache d.tableId }
  | attempt {job : Job} {faults : List (Option String)} (mem : job ∈ w.jobs)
      (unfinished : job.unfinished = true) :
      Transition env w (.attempt job.id faults)
        (w.setJob (job.run env faults w.db).1 (job.run env faults w.db).2)
  | createRow {user : String} {payload : Json} {bytes : ℕ} {m : MetaTable} {t : PhysTable}
      {row : Row} {cache : ValidationSchemaCache} (hm : m ∈ w.db.metaTables)
      (ht : w.db.tables.lookup m.name = some t) (hcache : CacheRead env.cfg w cache) :
      Transition env w (.createRow user m.id payload bytes)
        { w with
          db := w.db.setTable m.name { t with rows := t.rows ++ [row], nextId := t.nextId + 1 }
          cache := cache }
  | updateRow {rowId : ℤ} {payload : Json} {bytes : ℕ} {m : MetaTable} {t : PhysTable}
      {rows : List Row} (hm : m ∈ w.db.metaTables) (ht : w.db.tables.lookup m.name = some t)
      (kept : List.Forall₂ (fun r r' : Row => ∀ c,
        c ∉ (getOrBuildValidationSchema env.cfg w.db w.cache m.id).1.fields.map Prod.fst →
          r' c = r c) t.rows rows) :
      Transition env w (.updateRow m.id rowId payload bytes)
        { w with
          db := w.db.setTable m.name { t with rows := rows }
          cache := (getOrBuildValidationSchema env.cfg w.db w.cache m.id).2 }

/-! ### Row requests -/

section Rows

variable {js : JsRuntime} {pg : Postgres} {cfg : Config} {db : TenantSchema}

theorem findMetaTableOrThrow_ok {tableId : Uuid} {m : MetaTable}
    (h : findMetaTableOrThrow db tableId = .ok m) : m ∈ db.metaTables ∧ m.id = tableId := by
  unfold findMetaTableOrThrow at h
  split at h
  · rename_i m' hm
    cases h
    exact ⟨List.mem_of_find?_eq_some hm, by simpa using List.find?_some hm⟩
  · cases h

theorem writeCell_keeps {t : PhysTable} {row row' : Row} {kv : String × Json}
    (h : writeCell pg t row kv = .ok row') (c : String) (hc : c ≠ kv.1) : row' c = row c := by
  unfold writeCell at h
  split at h
  · cases h
  · split at h
    · cases h
      exact Function.update_of_ne hc _ _
    · cases h
  · split at h
    · cases h
    · cases h
      exact Function.update_of_ne hc _ _

theorem writeCells_keep {t : PhysTable} {values : List (String × Json)} {row row' : Row}
    (h : values.foldlM (writeCell pg t) row = .ok row') (c : String)
    (hc : c ∉ values.map Prod.fst) : row' c = row c := by
  induction values generalizing row with
  | nil =>
    cases h
    rfl
  | cons kv values ih =>
    rw [List.foldlM_cons] at h
    rw [List.map_cons, List.mem_cons, not_or] at hc
    cases hw : writeCell pg t row kv with
    | error e => simp [hw, bind, Except.bind] at h
    | ok row₁ =>
      rw [hw] at h
      exact (ih h hc.2).trans (writeCell_keeps hw c hc.1)

theorem pickKnownFields_keys {schema : TableValidationSchema} {payload : Json}
    {data : List (String × Json)} (h : pickKnownFields schema payload = .ok data) (c : String)
    (hc : c ∈ data.map Prod.fst) : c ∈ schema.fields.map Prod.fst := by
  unfold pickKnownFields at h
  split at h
  · cases h
    obtain ⟨kv, hkv, rfl⟩ := List.mem_map.mp hc
    obtain ⟨field, hfield, hv⟩ := List.mem_filterMap.mp hkv
    obtain ⟨v, -, rfl⟩ := Option.map_eq_some_iff.mp hv
    exact List.mem_map.mpr ⟨field, hfield, rfl⟩
  · cases h

theorem createRow_cases (js : JsRuntime) (pg : Postgres) (cfg : Config) (w : World) (user : String)
    (tableId : Uuid) (payload : Json) (bytes : ℕ) :
    CacheRead cfg w (createRow js pg cfg w.db w.cache user tableId payload bytes).2 ∧
      ∀ db', (createRow js pg cfg w.db w.cache user tableId payload bytes).1 = .ok db' →
        ∃ m t row, m ∈ w.db.metaTables ∧ m.id = tableId ∧ w.db.tables.lookup m.name = some t ∧
          db' = w.db.setTable m.name
            { t with rows := t.rows ++ [row], nextId := t.nextId + 1 } := by
  unfold createRow
  cases assertMutationPayloadSize cfg bytes with
  | error e => exact ⟨.none, fun db' h => by cases h⟩
  | ok u =>
    cases hm : findMetaTableOrThrow w.db tableId with
    | error e => exact ⟨.none, fun db' h => by cases h⟩
    | ok m =>
      obtain ⟨hmem, hid⟩ := findMetaTableOrThrow_ok hm
      refine ⟨.read hmem, fun db' h => ?_⟩
      dsimp only at h
      generalize (getOrBuildValidationSchema cfg w.db w.cache m.id).1 = schema at h
      obtain ⟨data, -, h⟩ := except_bind_ok.mp h
      obtain ⟨u, -, h⟩ := except_bind_ok.mp h
      cases ht : w.db.tables.lookup m.name with
      | none => simp [ht, throw, throwThe, MonadExceptOf.throw] at h
      | some t =>
        simp only [ht] at h
        obtain ⟨row, -, h⟩ := except_bind_ok.mp h
        split at h
        · cases h
        split at h
        · cases h
        · cases h
          exact ⟨m, t, row, hmem, hid, ht, rfl⟩

/-- A row of the table after an update: it kept every column outside `keys`. -/
theorem updateRows_keep {t : PhysTable} {db : TenantSchema} {rowId : ℤ}
    {data : List (String × Json)} {rows rows' : List Row}
    (h : (rows.mapM fun row =>
        if hasId rowId row then do
          let row ← data.foldlM (writeCell pg t) row
          if relationsResolve db t row (data.map Prod.fst) then pure row
          else throw reshapeForeignKeyViolation
        else pure row) = .ok rows') :
    List.Forall₂ (fun r r' : Row => ∀ c, c ∉ data.map Prod.fst → r' c = r c) rows rows' := by
  induction rows generalizing rows' with
  | nil =>
    cases h
    exact .nil
  | cons r rows ih =>
    rw [List.mapM_cons] at h
    obtain ⟨r', hr, h⟩ := except_bind_ok.mp h
    obtain ⟨rest, hrest, h⟩ := except_bind_ok.mp h
    cases h
    refine .cons (fun c hc => ?_) (ih hrest)
    split at hr
    · obtain ⟨r₁, hw, hr⟩ := except_bind_ok.mp hr
      split at hr
      · cases hr
        exact writeCells_keep hw c hc
      · cases hr
    · cases hr
      rfl

theorem updateRow_cases (js : JsRuntime) (pg : Postgres) (cfg : Config) (w : World)
    (tableId : Uuid) (rowId : ℤ) (payload : Json) (bytes : ℕ) :
    CacheRead cfg w (updateRow js pg cfg w.db w.cache tableId rowId payload bytes).2 ∧
      ∀ db', (updateRow js pg cfg w.db w.cache tableId rowId payload bytes).1 = .ok db' →
        ∃ m t rows, m ∈ w.db.metaTables ∧ m.id = tableId ∧ w.db.tables.lookup m.name = some t ∧
          db' = w.db.setTable m.name { t with rows := rows } ∧
          (updateRow js pg cfg w.db w.cache tableId rowId payload bytes).2 =
            (getOrBuildValidationSchema cfg w.db w.cache m.id).2 ∧
          List.Forall₂ (fun r r' : Row => ∀ c,
            c ∉ (getOrBuildValidationSchema cfg w.db w.cache m.id).1.fields.map Prod.fst →
              r' c = r c) t.rows rows := by
  unfold updateRow
  cases assertMutationPayloadSize cfg bytes with
  | error e => exact ⟨.none, fun db' h => by cases h⟩
  | ok u =>
    cases hm : findMetaTableOrThrow w.db tableId with
    | error e => exact ⟨.none, fun db' h => by cases h⟩
    | ok m =>
      obtain ⟨hmem, hid⟩ := findMetaTableOrThrow_ok hm
      dsimp only
      cases ht : w.db.tables.lookup m.name with
      | none => exact ⟨.none, fun db' h => by cases h⟩
      | some t =>
        dsimp only
        split
        · exact ⟨.none, fun db' h => by cases h⟩
        · refine ⟨.read hmem, fun db' h => ?_⟩
          dsimp only at h
          obtain ⟨data, hdata, h⟩ := except_bind_ok.mp h
          obtain ⟨u, -, h⟩ := except_bind_ok.mp h
          split at h
          · cases h
          · obtain ⟨rows, hrows, h⟩ := except_bind_ok.mp h
            cases h
            refine ⟨m, t, rows, hmem, hid, ht, rfl, rfl, ?_⟩
            refine (updateRows_keep hrows).imp fun r r' hr c hc => ?_
            exact hr c fun hk => hc (pickKnownFields_keys hdata c hk)

end Rows

theorem transition_of_step {env : Env} {w w' : World} {e : Event} (h : step env w e = some w') :
    Transition env w e w' := by
  cases e with
  | createTable dto =>
    simp only [step] at h
    split at h
    · cases h
      exact .refused .none
    · rename_i d hd
      cases h
      exact .createTable hd
  | fieldEdit tableId dto =>
    simp only [step] at h
    split at h
    · cases h
      exact .refused .none
    · rename_i d hd
      cases h
      exact .fieldEdit hd
  | attempt jobId faults =>
    simp only [step] at h
    split at h
    · cases h
    · rename_i job hjob
      cases h
      have hp := List.find?_some hjob
      simp only [Bool.and_eq_true, beq_iff_eq] at hp
      obtain ⟨rfl, hu⟩ := hp
      exact .attempt (List.mem_of_find?_eq_some hjob) hu
  | createRow user tableId payload bytes =>
    obtain ⟨hcache, hok⟩ := createRow_cases env.js env.pg env.cfg w user tableId payload bytes
    simp only [step] at h
    revert hcache hok h
    generalize createRow env.js env.pg env.cfg w.db w.cache user tableId payload bytes = r
    intro h hcache hok
    obtain ⟨r, cache⟩ := r
    cases r with
    | error e =>
      cases h
      exact .refused hcache
    | ok db =>
      cases h
      obtain ⟨m, t, row, hm, rfl, ht, rfl⟩ := hok db rfl
      exact .createRow hm ht hcache
  | updateRow tableId rowId payload bytes =>
    obtain ⟨hcache, hok⟩ := updateRow_cases env.js env.pg env.cfg w tableId rowId payload bytes
    simp only [step] at h
    revert hcache hok h
    generalize updateRow env.js env.pg env.cfg w.db w.cache tableId rowId payload bytes = r
    intro h hcache hok
    obtain ⟨r, cache⟩ := r
    cases r with
    | error e =>
      cases h
      exact .refused hcache
    | ok db =>
      cases h
      obtain ⟨m, t, rows, hm, rfl, ht, rfl, hc, hk⟩ := hok db rfl
      dsimp only at hc
      subst hc
      exact .updateRow hm ht hk

end Flexi.DynamicTables
