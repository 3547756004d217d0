import Flexi.DynamicTables.Interleaving
import Flexi.DynamicTables.SystemColumns

/-!
# The cached rules of a table and its rows in `_meta_fields`

An edit drops the entry of its table when it is accepted, and the worker writes the
metadata later. In between a row request can put the old rules back.
-/

namespace Flexi.DynamicTables.Interleaving
open Flexi.Library

/-! ### The claim and its condition -/

/-- A row request that came in while no job of its table was pending has the rules of
`_meta_fields`. -/
def Request.UpToDate : Request → Prop
  | .serving _ _ quiet schema current => quiet = true → schema = current
  | _ => True

def fieldsOf (db : TenantSchema) (tableId : Uuid) : List MetaField :=
  db.metaFields.filter fun f => f.tableId == tableId

/-- The worker changes no rows in `_meta_fields` of a table that has a cached entry, and a
request caches what it has built only while its rows are as it read them. -/
def CacheInStep (env : Env) (b : Backend) : Move → Prop
  | .work (.commit i) => ∀ job t rest db, b.shared.jobs[i]? = some job →
      job.phase = .active (t :: rest) → t.run env.pg b.shared.db = .ok db →
        ∀ kv ∈ b.shared.cache, fieldsOf db kv.1 = fieldsOf b.shared.db kv.1
  | .next i => ∀ call tableRow quiet schema,
      b.requests[i]? = some (.fetched call tableRow quiet schema) →
        schema = buildValidationSchema b.shared.db tableRow.id
  | _ => True

/-! ### What touches `_meta_fields` -/

section Fields

variable {env : Env} {db db' : TenantSchema}

theorem buildValidationSchema_congr {tableId : Uuid}
    (h : fieldsOf db' tableId = fieldsOf db tableId) :
    buildValidationSchema db' tableId = buildValidationSchema db tableId := by
  unfold buildValidationSchema
  unfold fieldsOf at h
  rw [h]

/-- Only rows of the table `name` differ. -/
inductive RowsWritten (name : String) (db : TenantSchema) : TenantSchema → Prop
  | none : RowsWritten name db db
  | some {t t' : PhysTable} : db.tables.lookup name = some t → t'.columns = t.columns →
      RowsWritten name db (db.setTable name t')

theorem insertRow_written {pg : Postgres} {name user : String} {data : List (String × Json)}
    (h : insertRow pg db name user data = .ok db') : RowsWritten name db db' := by
  unfold insertRow at h
  split at h
  · cases h
  · rename_i t ht
    obtain ⟨row, -, h⟩ := except_bind_ok.mp h
    split at h
    · cases h
    split at h
    · cases h
    cases h
    exact .some ht rfl

theorem updateRows_written {pg : Postgres} {name : String} {rowId : ℤ} {data : List (String × Json)}
    (h : updateRows pg db name rowId data = .ok db') : RowsWritten name db db' := by
  unfold updateRows at h
  split at h
  · cases h
  split at h
  · cases h
  · rename_i t ht
    obtain ⟨rows, -, h⟩ := except_bind_ok.mp h
    cases h
    exact .some ht rfl

theorem statement_written {call : RowCall} {tableRow : MetaTable} {schema : TableValidationSchema}
    (h : call.statement env db tableRow schema = .ok db') : RowsWritten tableRow.name db db' := by
  cases call with
  | createRow user payload bytes =>
    obtain ⟨data, -, h⟩ := except_bind_ok.mp h
    exact insertRow_written h
  | updateRow rowId payload bytes =>
    obtain ⟨data, -, h⟩ := except_bind_ok.mp h
    exact updateRows_written h
  | listRows | getRow rowId =>
    cases h
    exact .none

theorem insertMigration_ok {row : MetaMigration} (h : insertMigration row db = .ok db') :
    ∃ rows, db' = { db with metaMigrations := rows } := by
  unfold insertMigration at h
  split at h
  · cases h
  · cases h
    exact ⟨_, rfl⟩

theorem note_eq (env : Env) (t : Task) (error : String) (db : TenantSchema) :
    ∃ rows, (worker env).note t error db = { db with metaMigrations := rows } := by
  show ∃ rows, ((t.failure error).bind fun row => (insertMigration row db).toOption).getD db = _
  cases t.failure error with
  | none => exact ⟨_, rfl⟩
  | some row =>
    cases h : insertMigration row db with
    | error e => exact ⟨db.metaMigrations, by simp [h, Except.toOption]⟩
    | ok db' =>
      obtain ⟨rows, rfl⟩ := insertMigration_ok h
      exact ⟨rows, by simp [h, Except.toOption]⟩

end Fields

/-! ### The invariant -/

structure Coherent (b : Backend) : Prop where
  entries : ∀ kv ∈ b.shared.cache, kv.2 = buildValidationSchema b.shared.db kv.1
  requests : ∀ r ∈ b.requests, r.UpToDate

namespace Coherent

variable {env : Env} {b b' : Backend}

/-- The entries stay right while the rows of their tables stay. -/
theorem entries_of_fields (h : Coherent b) {db : TenantSchema}
    (hfields : ∀ kv ∈ b.shared.cache, fieldsOf db kv.1 = fieldsOf b.shared.db kv.1) :
    ∀ kv ∈ b.shared.cache, kv.2 = buildValidationSchema db kv.1 := by
  intro kv hkv
  rw [buildValidationSchema_congr (hfields kv hkv)]
  exact h.entries kv hkv

theorem set_request (h : Coherent b) {i : ℕ} {r : Request} (hr : r.UpToDate) :
    ∀ k ∈ b.requests.set i r, k.UpToDate := by
  intro k hk
  rcases mem_set_request hk with rfl | hk
  · exact hr
  · exact h.requests k hk

theorem advanced (h : Coherent b) {r r' : Request} {s : Shared}
    (hfetched : ∀ call tableRow quiet schema, r = .fetched call tableRow quiet schema →
      schema = buildValidationSchema b.shared.db tableRow.id)
    (hnext : Advanced env b.free b.shared r r' s) :
    (∀ kv ∈ s.cache, kv.2 = buildValidationSchema s.db kv.1) ∧ r'.UpToDate := by
  cases hnext with
  | @hit call tableRow quiet kv hmem hkey =>
    refine ⟨fun x hx => ?_, fun _ => ?_⟩
    · rcases List.mem_append.mp hx with hx | hx
      · exact h.entries x (invalidateValidationSchema_subset _ x hx)
      · rw [List.mem_singleton.mp hx]
        exact h.entries kv hmem
    · rw [← hkey]
      exact h.entries kv hmem
  | @cached call tableRow quiet schema maximum =>
    refine ⟨fun x hx => ?_, fun _ => rfl⟩
    rcases List.mem_append.mp (List.mem_of_mem_drop hx) with hx | hx
    · exact h.entries x (invalidateValidationSchema_subset _ x hx)
    · rw [List.mem_singleton.mp hx]
      exact hfetched call tableRow quiet schema rfl
  | served hstatement =>
    refine ⟨h.entries_of_fields fun kv _ => ?_, trivial⟩
    cases statement_written hstatement <;> rfl
  | invalidated => exact ⟨fun x hx => h.entries x (invalidateValidationSchema_subset _ x hx),
      trivial⟩
  | ended | prepared | tableQueued | tableFound | built | editQueued | locked | editAdmitted
      | unlocked
  | rowTable | rowFound | missed | fetched => exact ⟨h.entries, trivial⟩

theorem worked (h : Coherent b) {i : ℕ} {job job' : Queued DdlJobData Task} {w : Work String}
    {db : TenantSchema} (hjob : b.shared.jobs[i]? = some job) (hok : CacheInStep env b (.work w))
    (hworked : Worked (worker env) b.shared.db i job w job' db) :
    ∀ kv ∈ b.shared.cache, kv.2 = buildValidationSchema db kv.1 := by
  refine h.entries_of_fields fun kv hkv => ?_
  cases hworked with
  | take | complete => rfl
  | commit hphase hrun => exact hok job _ _ db hjob hphase hrun kv hkv
  | fail error noted hphase =>
    split
    · obtain ⟨rows, hnote⟩ := note_eq env _ error b.shared.db
      rw [hnote]
      rfl
    · rfl

theorem step (h : Coherent b) {m : Move} (hok : CacheInStep env b m) (hs : Stepped env b m b') :
    Coherent b' := by
  cases hs with
  | receive call =>
    refine ⟨h.entries, fun r hr => ?_⟩
    rcases List.mem_append.mp hr with hr | hr
    · exact h.requests r hr
    · rw [List.mem_singleton.mp hr]
      cases call <;> trivial
  | @next i r r' s hr hnext =>
    have hfetched : ∀ call tableRow quiet schema, r = .fetched call tableRow quiet schema →
        schema = buildValidationSchema b.shared.db tableRow.id := by
      intro call tableRow quiet schema heq
      exact hok call tableRow quiet schema (heq ▸ hr)
    obtain ⟨hentries, hrequest⟩ := h.advanced hfetched hnext
    exact ⟨hentries, h.set_request hrequest⟩
  | @count i r r' hr hcount =>
    refine ⟨h.entries, h.set_request ?_⟩
    unfold countRows at hcount
    split at hcount <;> cases hcount <;> trivial
  | @list i r r' hr hlist =>
    refine ⟨h.entries, h.set_request ?_⟩
    unfold listJobs at hlist
    split at hlist <;> cases hlist <;> trivial
  | abort hr => exact ⟨h.entries, h.set_request trivial⟩
  | work hjob hworked => exact ⟨h.worked hjob hok hworked, h.requests⟩

end Coherent

/-- While the cache is kept in step, every row request that came in on a quiet table has the
rules of `_meta_fields`. -/
theorem schema_coherence {env : Env} {schema : String} {tables : Tables} {b : Backend}
    (h : Reach (step env) (CacheInStep env) (started schema tables) b) :
    ∀ r ∈ b.requests, r.UpToDate := by
  have hcoherent : Coherent b := by
    refine h.invariant ⟨fun kv hkv => ?_, fun r hr => ?_⟩ fun b b' m _ hc hok hs =>
      hc.step hok (stepped_of_step hs)
    · cases hkv
    · cases hr
  exact hcoherent.requests

/-! ### A second field -/

/-- A request that reads the rows and caches them at once keeps the cache in step. -/
theorem reach_cached {env : Env} {b₀ b : Backend} (h : Reach (step env) (CacheInStep env) b₀ b)
    {i : ℕ}
    {call : RowCall} {tableRow : MetaTable} {quiet : Bool}
    (hr : b.requests[i]? = some (.fetching call tableRow quiet)) :
    ∃ b' schema, Reach (step env) (CacheInStep env) b₀ b' ∧
      .serving call tableRow quiet schema schema ∈ b'.requests := by
  have hlt : i < b.requests.length := (List.getElem?_eq_some_iff.mp hr).1
  let schema := buildValidationSchema b.shared.db tableRow.id
  let b₁ : Backend := { b with requests := b.requests.set i (.fetched call tableRow quiet schema) }
  have hget : b₁.requests[i]? = some (.fetched call tableRow quiet schema) :=
    List.getElem?_set_self hlt
  have hfirst : CacheInStep env b (.next i) := by
    intro call' tableRow' quiet' schema' heq
    rw [hr] at heq
    cases heq
  have hsecond : CacheInStep env b₁ (.next i) := by
    intro call' tableRow' quiet' schema' heq
    have hsame : Request.fetched call tableRow quiet schema = .fetched call' tableRow' quiet'
        schema' :=
      Option.some.inj (hget.symm.trans heq)
    cases hsame
    rfl
  have h₁ : Reach (step env) (CacheInStep env) b₀ b₁ := h.next hfirst (step_next hr rfl)
  have h₂ := h₁.next hsecond (step_next hget rfl)
  exact ⟨_, schema, h₂, List.mem_set (by rw [List.length_set]; exact hlt) _⟩

def addNote : UpdateFieldDto := addField "note" .STRING false

/-- `orders` gets its second field before anyone asks for rows. -/
def noteRun : List Move :=
  createRun 0 ordersTable ++ workRun 0 2 ++ addRun 1 1 addNote ++ workRun 1 3 ++
    [.receive (.row .listRows 1), .next 2, .next 2, .next 2]

/-- No entry is there when the worker writes, and no request caches. -/
def nothingCached (b : Backend) : Move → Bool
  | .work (.commit _) => b.shared.cache.isEmpty
  | .next i => (b.requests[i]?).all fun r => match r with
    | .fetched .. => false
    | _ => true
  | _ => true

theorem cacheInStep_of_nothingCached {env : Env} {b : Backend} {m : Move}
    (h : nothingCached b m = true) :
    CacheInStep env b m := by
  cases m with
  | work w =>
    cases w with
    | commit i =>
      intro job t rest db _ _ _ kv hkv
      rw [List.isEmpty_iff.mp h] at hkv
      cases hkv
    | take | fail | complete => trivial
  | next i =>
    intro call tableRow quiet schema heq
    rw [nothingCached, heq] at h
    cases h
  | receive | count | list | abort => trivial

/-- A row request on the quiet table has missed the cache. -/
def fetchesQuietly : Request → Bool
  | .fetching _ _ quiet => quiet
  | _ => false

theorem schema_coherence_note : ∃ (b : Backend) (call : RowCall) (tableRow : MetaTable)
    (schema : TableValidationSchema), .serving call tableRow true schema schema ∈ b.requests ∧
        ∀ r ∈ b.requests, r.UpToDate := by
  have hrun : ((runChecked (step plainEnv) nothingCached (started "tenant_a" ∅) noteRun).any
      fun b =>
      (b.requests[2]?).any fetchesQuietly) = true := by
    decide +kernel
  obtain ⟨b, hb, hfetching⟩ := (Option.any_eq_true _ _).mp hrun
  obtain ⟨r, hr, hquiet⟩ := (Option.any_eq_true _ _).mp hfetching
  have hreach : Reach (step plainEnv) (CacheInStep plainEnv) (started "tenant_a" ∅) b :=
    .of_runChecked (fun _ _ h => cacheInStep_of_nothingCached h) hb
  obtain ⟨call, tableRow, rfl⟩ : ∃ call tableRow, r = .fetching call tableRow true := by
    unfold fetchesQuietly at hquiet
    split at hquiet
    · exact ⟨_, _, by rw [hquiet]⟩
    · cases hquiet
  obtain ⟨b', schema, hreach', hmem⟩ := reach_cached hreach hr
  exact ⟨b', call, tableRow, schema, hmem, schema_coherence hreach'⟩

/-- A row request between acceptance and completion puts the old rules back. -/
def staleRun : List Move :=
  createRun 0 ordersTable ++ workRun 0 2 ++ addRun 1 1 addNote ++
    .receive (.row .listRows 1) :: List.replicate 5 (.next 2) ++ workRun 1 3 ++
    [.receive (.row .listRows 1), .next 3, .next 3, .next 3]

/-- A row request on the quiet table has other fields than `_meta_fields`. -/
def stale : Request → Bool
  | .serving _ _ quiet schema current =>
    quiet && schema.fields.map Prod.fst != current.fields.map Prod.fst
  | _ => false

theorem stale_schema_served : ¬ ∀ (env : Env) (schema : String) (tables : Tables) (b : Backend),
    Reach (step env) (fun _ _ => True) (started schema tables) b → ∀ r ∈ b.requests, r.UpToDate :=
      by
  intro hall
  have hrun : ((runAll (step plainEnv) (started "tenant_a" ∅) staleRun).any fun b =>
      b.requests.any stale) = true := by
    decide +kernel
  obtain ⟨b, hb, hstale⟩ := (Option.any_eq_true _ _).mp hrun
  obtain ⟨r, hr, hstale⟩ := List.any_eq_true.mp hstale
  have hfresh := hall plainEnv "tenant_a" ∅ b
      (.of_runAll (.of_labels (fun _ _ _ => trivial) _) hb) r hr
  unfold stale at hstale
  split at hstale
  · obtain ⟨hquiet, hne⟩ := Bool.and_eq_true_iff.mp hstale
    rw [hfresh hquiet] at hne
    simp at hne
  · cases hstale

end Flexi.DynamicTables.Interleaving
