import Mathlib.Algebra.Order.Floor.Defs
import Mathlib.Data.Rat.Floor
import Flexi.Common.JsValue
import Flexi.DynamicTables.Rows
import Flexi.Library.Lru

/-!
# The validation-schema cache

The `Map` of the service, read, written and invalidated in any order. The rest of the
development sees it as the list of its entries.
-/

namespace Flexi.DynamicTables.ValidationCache
open Flexi.Library

abbrev SchemaMap := InsertionMap Uuid TableValidationSchema

def DEFAULT_VALIDATION_SCHEMA_CACHE_MAX_ENTRIES : ℕ := 500

def getValidationSchemaCacheMaxEntries : JsValue → ℕ
  | .number (some (.finite configured)) => (max 1 ⌊configured⌋).toNat
  | _ => DEFAULT_VALIDATION_SCHEMA_CACHE_MAX_ENTRIES

def readValidationSchemaCache (cache : SchemaMap) (tableId : Uuid) :
    Option TableValidationSchema × SchemaMap :=
  match cache.get? tableId with
  | none => (none, cache)
  | some cached => (some cached, (cache.delete tableId).set tableId cached)

theorem size_delete_firstKey {cache : SchemaMap} {oldest : Uuid}
    (h : cache.firstKey? = some oldest) : (cache.delete oldest).size = cache.size - 1 := by
  rw [InsertionMap.size, InsertionMap.delete_firstKey h, List.length_tail, InsertionMap.size]

/-- The loop of `writeValidationSchemaCache`. -/
def evict (maximum : ℕ) (cache : SchemaMap) : SchemaMap :=
  if _hsize : maximum < cache.size then
    match _holdest : cache.firstKey? with
    | none => cache
    | some oldest => evict maximum (cache.delete oldest)
  else cache
termination_by cache.size
decreasing_by
  rw [size_delete_firstKey _holdest]
  omega

def writeValidationSchemaCache (configured : JsValue) (cache : SchemaMap) (tableId : Uuid)
    (schema : TableValidationSchema) : SchemaMap :=
  evict (getValidationSchemaCacheMaxEntries configured)
    ((cache.delete tableId).set tableId schema)

def invalidateValidationSchema (cache : SchemaMap) (tableId : Uuid) : SchemaMap :=
  cache.delete tableId

theorem maxEntries_of_finite {configured : JsValue} {bound : ℚ}
    (h : configured = .number (some (.finite bound))) :
    (getValidationSchemaCacheMaxEntries configured : ℤ) = max 1 ⌊bound⌋ := by
  have hmax := le_max_left 1 ⌊bound⌋
  rw [h, getValidationSchemaCacheMaxEntries]
  omega

theorem maxEntries_of_not_finite {configured : JsValue}
    (h : ∀ bound, configured ≠ .number (some (.finite bound))) :
    getValidationSchemaCacheMaxEntries configured = 500 := by
  unfold getValidationSchemaCacheMaxEntries
  split
  · exact absurd rfl (h _)
  · rfl

/-! ### Against the list of the entries -/

theorem evict_entries (maximum : ℕ) (cache : SchemaMap) :
    (evict maximum cache).entries = cache.entries.drop (cache.size - maximum) := by
  fun_induction evict maximum cache with
  | case1 cache hsize holdest =>
    have hempty : cache.entries = [] := by
      simpa [InsertionMap.firstKey?] using holdest
    simp [hempty]
  | case2 cache hsize oldest holdest ih =>
    have hstep : cache.size - maximum = (cache.size - 1 - maximum) + 1 := by omega
    rw [ih, size_delete_firstKey holdest, InsertionMap.delete_firstKey holdest, hstep,
      List.drop_tail]
  | case3 cache hsize =>
    have hzero : cache.size - maximum = 0 := by omega
    rw [hzero, List.drop_zero]

theorem getValidationSchemaCacheMaxEntries_pos (configured : JsValue) :
    1 ≤ getValidationSchemaCacheMaxEntries configured := by
  unfold getValidationSchemaCacheMaxEntries
  split
  · have hmax := le_max_left 1 ⌊‹ℚ›⌋
    omega
  · decide

theorem writeValidationSchemaCache_entries (configured : JsValue) (cache : SchemaMap)
    (tableId : Uuid) (schema : TableValidationSchema) :
    (writeValidationSchemaCache configured cache tableId schema).entries =
      DynamicTables.writeValidationSchemaCache (getValidationSchemaCacheMaxEntries configured)
        cache.entries tableId schema := by
  have hpos := getValidationSchemaCacheMaxEntries_pos configured
  rw [writeValidationSchemaCache, evict_entries, InsertionMap.size,
    InsertionMap.set_delete_entries, DynamicTables.writeValidationSchemaCache,
    DynamicTables.invalidateValidationSchema, Nat.max_eq_right hpos]

theorem getOrBuildValidationSchema_hit (cfg : Config) (db : TenantSchema) {cache : SchemaMap}
    {tableId : Uuid} {cached : TableValidationSchema}
    (h : (readValidationSchemaCache cache tableId).1 = some cached) :
    getOrBuildValidationSchema cfg db cache.entries tableId =
      (cached, (readValidationSchemaCache cache tableId).2.entries) := by
  cases hget : cache.get? tableId with
  | none => simp [readValidationSchemaCache, hget] at h
  | some value =>
    have hvalue : value = cached := by simpa [readValidationSchemaCache, hget] using h
    obtain ⟨entry, hfind, hsnd⟩ := Option.map_eq_some_iff.mp hget
    have hkey := List.find?_some hfind
    rw [beq_iff_eq] at hkey
    simp only [getOrBuildValidationSchema, hfind, readValidationSchemaCache, hget,
      InsertionMap.set_delete_entries, DynamicTables.invalidateValidationSchema]
    rw [← hvalue, ← hsnd, ← hkey]

/-- A miss is a read that finds nothing, followed by a write. -/
theorem getOrBuildValidationSchema_miss {cfg : Config} (db : TenantSchema) {cache : SchemaMap}
    {tableId : Uuid} {configured : JsValue}
    (hcfg : getValidationSchemaCacheMaxEntries configured =
      max 1 cfg.DYNAMIC_TABLES_VALIDATION_SCHEMA_CACHE_MAX_ENTRIES)
    (h : (readValidationSchemaCache cache tableId).1 = none) :
    getOrBuildValidationSchema cfg db cache.entries tableId =
      (buildValidationSchema db tableId,
        (writeValidationSchemaCache configured (readValidationSchemaCache cache tableId).2 tableId
          (buildValidationSchema db tableId)).entries) := by
  cases hget : cache.get? tableId with
  | some value => simp [readValidationSchemaCache, hget] at h
  | none =>
    have hfind : cache.entries.find? (fun kv => kv.1 == tableId) = none :=
      Option.map_eq_none_iff.mp hget
    simp only [getOrBuildValidationSchema, hfind, readValidationSchemaCache, hget,
      writeValidationSchemaCache_entries, DynamicTables.writeValidationSchemaCache, hcfg,
      Nat.max_eq_right (le_max_left 1 _)]

/-! ### Uses of the cache -/

abbrev CacheUse := Use Uuid TableValidationSchema

def step (configured : JsValue) (cache : SchemaMap) : CacheUse → SchemaMap
  | .read tableId => (readValidationSchemaCache cache tableId).2
  | .write tableId schema => writeValidationSchemaCache configured cache tableId schema
  | .drop tableId => invalidateValidationSchema cache tableId

/-- The cache after a sequence of uses, newest first. -/
def cacheAfter (configured : JsValue) : List CacheUse → SchemaMap
  | [] => .empty
  | use :: past => step configured (cacheAfter configured past) use

section

variable {configured : JsValue} {past : List CacheUse} {cache : SchemaMap} {tableId : Uuid}
  {schema : TableValidationSchema}

theorem recent_set_delete (h : Recent past cache) (tableId : Uuid)
    (schema : TableValidationSchema) :
    Recent (.write tableId schema :: past) ((cache.delete tableId).set tableId schema) := by
  refine h.touch (by simp [Use.uses]) ?_ (by simp [lastWritten])
  intro other hother
  simp [Use.uses, lastWritten, Ne.symm hother]

theorem recent_read (h : Recent past cache) :
    Recent (.read tableId :: past) (readValidationSchemaCache cache tableId).2 := by
  unfold readValidationSchemaCache
  split
  · next hmiss =>
    refine h.unused ?_ (fun _ _ => rfl)
    intro entry hmem
    have hkey := InsertionMap.get?_eq_none_iff.mp hmiss
    have hne : tableId ≠ entry.1 := fun heq => hkey (heq ▸ List.mem_map_of_mem hmem)
    simpa [Use.uses] using hne
  · next cached hhit =>
    have hvalue := h.current _ (InsertionMap.get?_eq_some_iff.mp hhit)
    refine h.touch (by simp [Use.uses]) ?_ hvalue
    intro other hother
    exact ⟨by simp [Use.uses, Ne.symm hother], rfl⟩

theorem read_keys : (readValidationSchemaCache cache tableId).2.keys = cache.keys := by
  unfold readValidationSchemaCache
  split
  · rfl
  · next cached hhit =>
    rw [InsertionMap.keys_set_delete]
    apply Finset.insert_eq_self.mpr
    rw [InsertionMap.mem_keys]
    exact List.mem_map_of_mem (InsertionMap.get?_eq_some_iff.mp hhit)

theorem recent_write (h : Recent past cache) :
    Recent (.write tableId schema :: past)
      (writeValidationSchemaCache configured cache tableId schema) := by
  refine (recent_set_delete h tableId schema).sublist ?_
  rw [writeValidationSchemaCache, evict_entries]
  exact List.drop_sublist _ _

theorem write_keys (h : Recent past cache) :
    (writeValidationSchemaCache configured cache tableId schema).keys =
      mostRecent (getValidationSchemaCacheMaxEntries configured)
        (.write tableId schema :: past) (insert tableId cache.keys) := by
  rw [← InsertionMap.keys_set_delete schema, (recent_set_delete h tableId schema).mostRecent_keys,
    writeValidationSchemaCache, InsertionMap.keys, evict_entries]

theorem recent_invalidate (h : Recent past cache) :
    Recent (.drop tableId :: past) (invalidateValidationSchema cache tableId) :=
  (h.sublist List.filter_sublist).unused (fun _ _ => rfl) (fun _ _ => rfl)

/-- What each use preserves, a sequence of uses does. -/
theorem cacheAfter_recent (configured : JsValue) (past : List CacheUse) :
    Recent past (cacheAfter configured past) ∧
      (cacheAfter configured past).keys =
        held (getValidationSchemaCacheMaxEntries configured) past := by
  induction past with
  | nil => exact ⟨Recent.empty, rfl⟩
  | cons use past ih =>
    obtain ⟨hrecent, hkeys⟩ := ih
    cases use with
    | read tableId => exact ⟨recent_read hrecent, read_keys.trans hkeys⟩
    | write tableId schema =>
      refine ⟨recent_write hrecent, ?_⟩
      rw [cacheAfter, step, write_keys hrecent, hkeys, held]
    | drop tableId =>
      refine ⟨recent_invalidate hrecent, ?_⟩
      rw [cacheAfter, step, invalidateValidationSchema, InsertionMap.keys_delete, hkeys, held]

theorem read_of_mem (h : Recent past cache) (hmem : tableId ∈ cache.keys) :
    (readValidationSchemaCache cache tableId).1 = lastWritten tableId past ∧
      (lastWritten tableId past).isSome = true := by
  obtain ⟨entry, hentry, rfl⟩ := List.mem_map.mp (InsertionMap.mem_keys.mp hmem)
  have hget : cache.get? entry.1 = some entry.2 := InsertionMap.get?_eq_some_iff.mpr hentry
  rw [h.current entry hentry]
  exact ⟨by simp [readValidationSchemaCache, hget], rfl⟩

theorem size_write_le :
    (writeValidationSchemaCache configured cache tableId schema).size ≤
      getValidationSchemaCacheMaxEntries configured := by
  rw [writeValidationSchemaCache, InsertionMap.size, evict_entries, List.length_drop]
  rw [InsertionMap.size]
  omega

theorem write_get? :
    (writeValidationSchemaCache configured cache tableId schema).get? tableId = some schema := by
  have hpos := getValidationSchemaCacheMaxEntries_pos configured
  rw [InsertionMap.get?_eq_some_iff, writeValidationSchemaCache, evict_entries, InsertionMap.size,
    InsertionMap.set_delete_entries, List.length_append, List.length_singleton,
    List.drop_append_of_le_length (by omega)]
  exact List.mem_append_right _ (List.mem_singleton_self _)

/-- What is evicted was used before all that is kept, and nothing is evicted from a
cache that is within its bound. -/
theorem evicted_least_recent (h : Recent past cache) {evicted : Uuid}
    (hbefore : evicted ∈ insert tableId cache.keys)
    (hafter : evicted ∉ (writeValidationSchemaCache configured cache tableId schema).keys) :
    (writeValidationSchemaCache configured cache tableId schema).size =
        getValidationSchemaCacheMaxEntries configured ∧
      ∀ kept ∈ (writeValidationSchemaCache configured cache tableId schema).keys,
        lastUsed evicted (.write tableId schema :: past) <
          lastUsed kept (.write tableId schema :: past) := by
  have hordered := (recent_set_delete h tableId schema).ordered
  rw [← InsertionMap.keys_set_delete schema] at hbefore
  simp only [InsertionMap.mem_keys, writeValidationSchemaCache, evict_entries, InsertionMap.size]
    at hbefore hafter ⊢
  generalize ((cache.delete tableId).set tableId schema).entries = entries at *
  generalize hexcess : entries.length - getValidationSchemaCacheMaxEntries configured = excess at *
  -- the evicted entry is among the first ones, which are ordered before the others
  rw [← List.take_append_drop excess entries, List.pairwise_append] at hordered
  rw [← List.take_append_drop excess entries, List.map_append, List.mem_append] at hbefore
  obtain ⟨entry, hentry, rfl⟩ := List.mem_map.mp (hbefore.resolve_right hafter)
  constructor
  · have hpos := List.length_pos_of_mem hentry
    rw [List.length_take] at hpos
    rw [List.length_drop]
    omega
  · intro kept hkept
    obtain ⟨later, hlater, rfl⟩ := List.mem_map.mp hkept
    exact hordered.2.2 entry hentry later hlater

/-- The cache of the service is the least-recently-used cache with the configured
bound, after every sequence of reads, writes and invalidations. -/
theorem validation_cache_lru (configured : JsValue) (past : List CacheUse) (tableId : Uuid)
    (schema : TableValidationSchema) :
    let maximum := getValidationSchemaCacheMaxEntries configured
    let before := cacheAfter configured past
    let now := Use.write tableId schema :: past
    let after := cacheAfter configured now
    (∀ bound, configured = .number (some (.finite bound)) → (maximum : ℤ) = max 1 ⌊bound⌋) ∧
    ((∀ bound, configured ≠ .number (some (.finite bound))) → maximum = 500) ∧
    after.size ≤ maximum ∧
    after.get? tableId = some schema ∧
    after.keys = held maximum now ∧
    (∀ kept ∈ after.keys, (readValidationSchemaCache after kept).1 = lastWritten kept now ∧
      (lastWritten kept now).isSome = true) ∧
    (∀ evicted ∈ insert tableId before.keys, evicted ∉ after.keys →
      after.size = maximum ∧ ∀ kept ∈ after.keys, lastUsed evicted now < lastUsed kept now) := by
  intro maximum before now after
  obtain ⟨hrecent, hkeys⟩ := cacheAfter_recent configured now
  have hbefore := (cacheAfter_recent configured past).1
  refine ⟨?_, ?_, size_write_le, write_get?, hkeys, ?_, ?_⟩
  · intro bound hbound
    exact maxEntries_of_finite hbound
  · intro hbound
    exact maxEntries_of_not_finite hbound
  · intro kept hkept
    exact read_of_mem hrecent hkept
  · intro evicted hevicted hgone
    exact evicted_least_recent hbefore hevicted hgone

end

end Flexi.DynamicTables.ValidationCache
