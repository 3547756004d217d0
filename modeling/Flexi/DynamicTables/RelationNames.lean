import Flexi.DynamicTables.EditPlan
import Flexi.DynamicTables.RowListing

/-!
# The names in a row query

`buildRowQuery` joins each relation under the alias `slug__rel`, which Postgres cuts to 63
bytes like every identifier. Two tables of one statement may not share a name.
-/

namespace Flexi.DynamicTables
open Flexi.Library Flexi.Tenancy Flexi.Tenants Relation

/-! ### Names and what they mean -/

/-- The tables in `FROM` under their names; `none` is the table that is queried. -/
def RowQuery.scope (q : RowQuery) : List (String × Option RelationJoin) :=
  (truncateIdentifier q.table, none) :: q.joins.map fun j => (truncateIdentifier j.joinAlias, some j)

/-- The tables that a name in the statement may mean. -/
def RowQuery.meanings (q : RowQuery) (name : String) : List (Option RelationJoin) :=
  (q.scope.filter fun entry => entry.1 == truncateIdentifier name).map Prod.snd

/-- No two tables share a name, and each name means its own table. -/
structure RowQuery.WellNamed (q : RowQuery) : Prop where
  distinct : (q.scope.map Prod.fst).Nodup
  table : q.meanings q.table = [none]
  relations : ∀ j ∈ q.joins, q.meanings j.joinAlias = [some j]

/-- The table is not named as an alias is, no slug of 63 bytes as another relation's alias,
and no slug as one of 61 bytes with an underscore after it. -/
structure NamesApart (name : String) (slugs : List String) : Prop where
  table : ∀ slug ∈ slugs, name ≠ truncateIdentifier (slug ++ "__rel")
  full : ∀ slug ∈ slugs, ∀ other ∈ slugs, slug.length = MAX_IDENTIFIER_LENGTH →
    slug = truncateIdentifier (other ++ "__rel") → slug = other
  underscore : ∀ slug ∈ slugs, slug.length = 61 → slug ++ "_" ∉ slugs

section Meanings

variable {q : RowQuery}

theorem scope_names : q.scope.map Prod.fst =
    (q.table :: q.joins.map RelationJoin.joinAlias).map truncateIdentifier := by
  simp [RowQuery.scope]

theorem meanings_of_mem {entry : String × Option RelationJoin} {name : String}
    (hdistinct : (q.scope.map Prod.fst).Nodup) (hmem : entry ∈ q.scope)
    (hname : entry.1 = truncateIdentifier name) : q.meanings name = [entry.2] := by
  have hfilter : q.scope.filter (fun e => e.1 == truncateIdentifier name) = [entry] := by
    obtain ⟨before, after, hscope⟩ := List.append_of_mem hmem
    rw [hscope, List.map_append, List.map_cons, List.nodup_middle, List.nodup_cons, ← List.map_append]
      at hdistinct
    have hothers (e : String × Option RelationJoin) (he : e ∈ before ++ after) :
        ¬ (e.1 == truncateIdentifier name) = true := by
      rw [beq_iff_eq, ← hname]
      exact fun hsame => hdistinct.1 (List.mem_map.mpr ⟨e, he, hsame⟩)
    rw [hscope, List.filter_append, List.filter_cons_of_pos (by simp [hname]),
      List.filter_eq_nil_iff.mpr fun e he => hothers e (List.mem_append_left _ he),
      List.filter_eq_nil_iff.mpr fun e he => hothers e (List.mem_append_right _ he)]
    rfl
  rw [RowQuery.meanings, hfilter]
  rfl

theorem wellNamed_iff : q.WellNamed ↔
    ((q.table :: q.joins.map RelationJoin.joinAlias).map truncateIdentifier).Nodup := by
  rw [← scope_names]
  constructor
  · exact fun h => h.distinct
  · intro h
    refine ⟨h, meanings_of_mem h List.mem_cons_self rfl, fun j hj => ?_⟩
    exact meanings_of_mem h (List.mem_cons_of_mem _ (List.mem_map.mpr ⟨j, hj, rfl⟩)) rfl

end Meanings

/-! ### Aliases near the limit -/

def suffix : List Char := "__rel".toList

theorem take_ne {a b : List Char} {n i : ℕ} (h : a.take n = b.take n) (hi : i < n) : a[i]? = b[i]? := by
  have hget := congrArg (·[i]?) h
  simpa [List.getElem?_take, hi] using hget

/-- The shorter of two slugs with one alias, and what the longer one adds to it. -/
theorem alias_prefix {a b : List Char} (hlt : a.length < b.length)
    (hb : b.length ≤ MAX_IDENTIFIER_LENGTH)
    (h : (a ++ suffix).take MAX_IDENTIFIER_LENGTH = (b ++ suffix).take MAX_IDENTIFIER_LENGTH) :
    ∃ k, 1 ≤ k ∧ k ≤ 5 ∧ b.length = a.length + k ∧ b = a ++ suffix.take k := by
  have htake := congrArg (List.take b.length) h
  rw [List.take_take, List.take_take, min_eq_left hb, List.take_left, List.take_append,
    List.take_of_length_le hlt.le] at htake
  refine ⟨b.length - a.length, by omega, ?_, by omega, htake.symm⟩
  have hlength := congrArg List.length htake
  have hsuffix : suffix.length = 5 := rfl
  rw [List.length_append, List.length_take, hsuffix] at hlength
  omega

theorem alias_longer {a b : List Char} (hlt : a.length < b.length)
    (hb : b.length ≤ MAX_IDENTIFIER_LENGTH)
    (h : (a ++ suffix).take MAX_IDENTIFIER_LENGTH = (b ++ suffix).take MAX_IDENTIFIER_LENGTH) :
    b.length = MAX_IDENTIFIER_LENGTH ∧ b = (a ++ suffix).take MAX_IDENTIFIER_LENGTH ∨
      a.length = 61 ∧ b = a ++ ['_'] := by
  obtain ⟨k, hk, hk5, hlength, hadded⟩ := alias_prefix hlt hb h
  have hmax : MAX_IDENTIFIER_LENGTH = 63 := rfl
  by_cases hfull : b.length = MAX_IDENTIFIER_LENGTH
  · left
    rw [h, ← hfull, List.take_left]
    exact ⟨rfl, rfl⟩
  · right
    -- behind the shorter slug the two aliases go on differently
    have hindex (i : ℕ) (hi : a.length + i < 63) : suffix[i]? = (suffix.take k ++ suffix)[i]? := by
      have hget := take_ne h hi
      rw [hadded, List.append_assoc, List.getElem?_append_right (Nat.le_add_right ..),
        List.getElem?_append_right (Nat.le_add_right ..), Nat.add_sub_cancel_left] at hget
      exact hget
    interval_cases k
    · refine ⟨?_, hadded⟩
      by_contra hne
      exact absurd (hindex 2 (by omega)) (by decide)
    · exact absurd (hindex 2 (by omega)) (by decide)
    · exact absurd (hindex 3 (by omega)) (by decide)
    · exact absurd (hindex 4 (by omega)) (by decide)
    · exact absurd (hindex 5 (by omega)) (by decide)

theorem alias_of_length {a b : List Char} (heq : a.length = b.length)
    (hb : b.length ≤ MAX_IDENTIFIER_LENGTH)
    (h : (a ++ suffix).take MAX_IDENTIFIER_LENGTH = (b ++ suffix).take MAX_IDENTIFIER_LENGTH) :
    a = b := by
  have htake := congrArg (List.take b.length) h
  rw [List.take_take, List.take_take, min_eq_left hb, List.take_left, ← heq, List.take_left] at htake
  exact htake

theorem alias_eq {a b : List Char} (ha : a.length ≤ MAX_IDENTIFIER_LENGTH)
    (hb : b.length ≤ MAX_IDENTIFIER_LENGTH)
    (h : (a ++ suffix).take MAX_IDENTIFIER_LENGTH = (b ++ suffix).take MAX_IDENTIFIER_LENGTH) :
    a = b ∨
      b.length = MAX_IDENTIFIER_LENGTH ∧ b = (a ++ suffix).take MAX_IDENTIFIER_LENGTH ∨
      a.length = MAX_IDENTIFIER_LENGTH ∧ a = (b ++ suffix).take MAX_IDENTIFIER_LENGTH ∨
      a.length = 61 ∧ b = a ++ ['_'] ∨ b.length = 61 ∧ a = b ++ ['_'] := by
  rcases lt_trichotomy a.length b.length with hlt | heq | hgt
  · rcases alias_longer hlt hb h with hfull | hunderscore
    · exact .inr (.inl hfull)
    · exact .inr (.inr (.inr (.inl hunderscore)))
  · exact .inl (alias_of_length heq hb h)
  · rcases alias_longer hgt ha h.symm with hfull | hunderscore
    · exact .inr (.inr (.inl hfull))
    · exact .inr (.inr (.inr (.inr hunderscore)))

theorem alias_of_full {a : List Char} (h : a.length = MAX_IDENTIFIER_LENGTH) :
    (a ++ suffix).take MAX_IDENTIFIER_LENGTH = a := by
  rw [← h, List.take_left]

theorem alias_of_underscore {a : List Char} (h : a.length = 61) :
    (a ++ ['_'] ++ suffix).take MAX_IDENTIFIER_LENGTH = (a ++ suffix).take MAX_IDENTIFIER_LENGTH := by
  have hmax : MAX_IDENTIFIER_LENGTH = a.length + 2 := by rw [h]; rfl
  rw [List.append_assoc, hmax, List.take_length_add_append, List.take_length_add_append]
  rfl

/-! ### Distinct names -/

theorem truncate_eq_iff {a b : String} : truncateIdentifier a = truncateIdentifier b ↔
    a.toList.take MAX_IDENTIFIER_LENGTH = b.toList.take MAX_IDENTIFIER_LENGTH := by
  unfold truncateIdentifier
  constructor
  · intro h
    have hlist := congrArg String.toList h
    simpa using hlist
  · exact congrArg String.ofList

theorem toList_truncate (a : String) :
    (truncateIdentifier a).toList = a.toList.take MAX_IDENTIFIER_LENGTH := by
  simp [truncateIdentifier]

theorem truncate_of_length {a : String} (h : a.length ≤ MAX_IDENTIFIER_LENGTH) :
    truncateIdentifier a = a := by
  have hlist : a.toList.length ≤ MAX_IDENTIFIER_LENGTH := by rwa [String.length_toList]
  rw [truncateIdentifier, List.take_of_length_le hlist, String.ofList_toList]

theorem toList_alias (slug : String) : (slug ++ "__rel").toList = slug.toList ++ suffix := by
  simp [suffix]

section Distinct

variable {name : String} {slugs : List String}

theorem alias_inj (hslugs : ∀ slug ∈ slugs, slug.length ≤ MAX_IDENTIFIER_LENGTH)
    (h : NamesApart name slugs) {a b : String} (ha : a ∈ slugs) (hb : b ∈ slugs)
    (heq : truncateIdentifier (a ++ "__rel") = truncateIdentifier (b ++ "__rel")) : a = b := by
  have hlength (slug : String) (hslug : slug ∈ slugs) :
      slug.toList.length ≤ MAX_IDENTIFIER_LENGTH := by
    rw [String.length_toList]
    exact hslugs slug hslug
  have hfull {slug other : String} (hslug : slug ∈ slugs) (hother : other ∈ slugs)
      (hmax : slug.toList.length = MAX_IDENTIFIER_LENGTH)
      (hcut : slug.toList = (other.toList ++ suffix).take MAX_IDENTIFIER_LENGTH) : slug = other := by
    refine h.full slug hslug other hother (by rwa [← String.length_toList]) (String.toList_inj.mp ?_)
    rw [hcut, toList_truncate, toList_alias]
  have hunderscore {slug other : String} (hslug : slug ∈ slugs) (hother : other ∈ slugs)
      (hmax : slug.toList.length = 61) (hadded : other.toList = slug.toList ++ ['_']) : False := by
    refine h.underscore slug hslug (by rwa [← String.length_toList]) ?_
    have hsame : slug ++ "_" = other := String.toList_inj.mp (by rw [hadded]; simp)
    rwa [hsame]
  rw [truncate_eq_iff, toList_alias, toList_alias] at heq
  rcases alias_eq (hlength a ha) (hlength b hb) heq with hsame | ⟨hmax, hcut⟩ | ⟨hmax, hcut⟩ |
    ⟨hmax, hadded⟩ | ⟨hmax, hadded⟩
  · exact String.toList_inj.mp hsame
  · exact (hfull hb ha hmax hcut).symm
  · exact hfull ha hb hmax hcut
  · exact (hunderscore ha hb hmax hadded).elim
  · exact (hunderscore hb ha hmax hadded).elim

theorem names_distinct_iff (hname : name.length ≤ MAX_IDENTIFIER_LENGTH)
    (hslugs : ∀ slug ∈ slugs, slug.length ≤ MAX_IDENTIFIER_LENGTH) (hnodup : slugs.Nodup) :
    ((name :: slugs.map (· ++ "__rel")).map truncateIdentifier).Nodup ↔ NamesApart name slugs := by
  rw [List.map_cons, List.nodup_cons, truncate_of_length hname, List.map_map,
    List.nodup_map_iff_inj_on hnodup]
  constructor
  · rintro ⟨htable, hinj⟩
    constructor
    · rintro slug hslug rfl
      exact htable (List.mem_map.mpr ⟨slug, hslug, rfl⟩)
    · intro slug hslug other hother hmax hcut
      refine hinj slug hslug other hother (truncate_eq_iff.mpr ?_)
      rw [toList_alias, alias_of_full (by rwa [String.length_toList]), ← toList_truncate]
      exact congrArg String.toList hcut
    · intro slug hslug hmax hmem
      have hsame := hinj (slug ++ "_") hmem slug hslug (truncate_eq_iff.mpr (by
        have htoList : (slug ++ "_").toList = slug.toList ++ ['_'] := by simp
        rw [toList_alias, toList_alias, htoList]
        exact alias_of_underscore (by rwa [String.length_toList])))
      have hlength := congrArg String.length hsame
      simp at hlength
  · intro h
    constructor
    · intro hmem
      obtain ⟨slug, hslug, hcut⟩ := List.mem_map.mp hmem
      exact h.table slug hslug hcut.symm
    · exact fun a ha b hb heq => alias_inj hslugs h ha hb heq

end Distinct

/-! ### The names that the service accepts -/

theorem sanitizeUserIdentifier_length {slug out : String} (h : sanitizeUserIdentifier slug = .ok out) :
    slug.length ≤ MAX_IDENTIFIER_LENGTH := by
  unfold sanitizeUserIdentifier at h
  split at h
  · rename_i hname
    exact (sanitizeIdentifier_ok hname).2.2
  · cases h

theorem sanitizeUserTableName_length {name out : String} (h : sanitizeUserTableName name = .ok out) :
    name.length ≤ MAX_IDENTIFIER_LENGTH := by
  unfold sanitizeUserTableName at h
  split at h
  · cases h
  · exact sanitizeUserIdentifier_length h

/-- The names in a job are accepted ones. -/
def NamedJob : DdlJobData → Prop
  | .createTable d => sanitizeUserTableName d.tableName = .ok d.tableName ∧
      ∀ field ∈ d.fields, sanitizeUserIdentifier field.name = .ok field.name
  | .fieldEdit d => ∀ effect ∈ d.metadataEffects, ∀ slug ∈ effect.upserted,
      sanitizeUserIdentifier slug = .ok slug

theorem forall₂_right {α β : Type} {P : β → Prop} {xs : List α} {ys : List β}
    (h : List.Forall₂ (fun _ y => P y) xs ys) : ∀ y ∈ ys, P y := by
  induction h with
  | nil => exact fun y hy => absurd hy List.not_mem_nil
  | cons hy _ ih => exact List.forall_mem_cons.mpr ⟨hy, ih⟩

section Named

variable {env : Env} {pg : Postgres} {cfg : Config} {db db' : TenantSchema} {w w' : World}

theorem enqueueCreateTable_named {pending : List DdlJobData} {jobId tableId : Uuid} {dto : CreateTableDto}
    {d : CreateTableJobData} (h : enqueueCreateTable cfg db pending jobId tableId dto = .ok d) :
    NamedJob (.createTable d) := by
  unfold enqueueCreateTable at h
  obtain ⟨-, -, h⟩ := except_bind_ok.mp h
  obtain ⟨-, -, h⟩ := except_bind_ok.mp h
  obtain ⟨tableName, hname, h⟩ := except_bind_ok.mp h
  obtain ⟨fields, hfields, h⟩ := except_bind_ok.mp h
  obtain ⟨-, -, h⟩ := except_bind_ok.mp h
  cases h
  obtain rfl := (sanitizeUserTableName_ok hname).1
  refine ⟨hname, forall₂_right ((except_mapM_ok hfields).imp fun requested field hfield => ?_)⟩
  obtain ⟨slug, hslug, hfield⟩ := except_bind_ok.mp hfield
  cases hfield
  obtain rfl := sanitizeUserIdentifier_ok hslug
  exact hslug

theorem buildFieldEditSteps_named {tableId : Uuid} {edit : FieldEditDto}
    {b : List FieldEditStep × FieldMetadataEffect} (h : buildFieldEditSteps db tableId edit = .ok b) :
    ∀ slug ∈ b.2.upserted, sanitizeUserIdentifier slug = .ok slug := by
  have hname : sanitizeUserIdentifier edit.name = .ok edit.name := by
    unfold buildFieldEditSteps at h
    obtain ⟨column, hname, -⟩ := except_bind_ok.mp h
    obtain rfl := sanitizeUserIdentifier_ok hname
    exact hname
  obtain ⟨p, rfl, hcolumn, -⟩ := buildFieldEditSteps_ok h
  intro slug hslug
  have hsame : slug = edit.name := by
    rw [← hcolumn]
    cases p with
    | remove => cases hslug
    | _ => exact List.mem_singleton.mp hslug
  rw [hsame]
  exact hname

theorem enqueueFieldEdit_named {pending : List DdlJobData} {jobId tableId : Uuid} {dto : UpdateFieldDto}
    {d : FieldEditJobData} (h : enqueueFieldEdit cfg db pending jobId tableId dto = .ok d) :
    NamedJob (.fieldEdit d) := by
  obtain ⟨-, -, -, built, hbuilt, -, heffects⟩ := enqueueFieldEdit_ok h
  intro effect heffect
  rw [heffects] at heffect
  obtain ⟨b, hb, rfl⟩ := List.mem_map.mp heffect
  exact forall₂_right (hbuilt.imp fun edit b hb => buildFieldEditSteps_named hb) b hb

/-- The names in the metadata are accepted ones. -/
def NamedSchema (db : TenantSchema) : Prop :=
  (∀ m ∈ db.metaTables, sanitizeUserTableName m.name = .ok m.name) ∧
    ∀ f ∈ db.metaFields, sanitizeUserIdentifier f.slug = .ok f.slug

theorem slugs_named {tableId : Uuid} {new : List String}
    (hfields : ∀ f ∈ db.metaFields, sanitizeUserIdentifier f.slug = .ok f.slug)
    (hnew : ∀ slug ∈ new, sanitizeUserIdentifier slug = .ok slug)
    (h : SlugsAdded tableId new db db') :
    ∀ f ∈ db'.metaFields, sanitizeUserIdentifier f.slug = .ok f.slug := by
  have hold (other : Uuid) (slug : String) (hslug : slug ∈ db.fieldSlugs other) :
      sanitizeUserIdentifier slug = .ok slug := by
    obtain ⟨f, hf, -, rfl⟩ := mem_fieldSlugs.mp hslug
    exact hfields f hf
  intro f hf
  have hmem : f.slug ∈ db'.fieldSlugs f.tableId := mem_fieldSlugs.mpr ⟨f, hf, rfl, rfl⟩
  by_cases htable : f.tableId = tableId
  · rw [htable] at hmem
    rcases h.mem _ hmem with hslug | hslug
    · exact hold tableId _ hslug
    · exact hnew _ hslug
  · rw [h.others _ htable] at hmem
    exact hold _ _ hmem

theorem named_write {data : DdlJobData} (hdata : NamedJob data) (h : NamedSchema db)
    (hw : JobWrite pg data db db') : NamedSchema db' := by
  cases hw with
  | migration => exact h
  | @create d _ _ hbody =>
    have hregistered := createTableBody_ok (sanitizeUserTableName_ok hdata.1).2 hbody
    refine ⟨fun m hm => ?_, slugs_named h.2 (fun slug hslug => ?_) (createTableBody_slugs hbody).1⟩
    · rcases (hregistered.metaTables m).mp hm with rfl | ⟨hm, -⟩
      · exact hdata.1
      · exact h.1 m hm
    · obtain ⟨field, hfield, rfl⟩ := List.mem_map.mp hslug
      exact hdata.2 field hfield
  | step _ hstep =>
    obtain ⟨htables, hfields⟩ := executeStep_metadata hstep
    exact ⟨htables ▸ h.1, hfields ▸ h.2⟩
  | effects heffects =>
    refine ⟨(Catalog.applyEffects_frame heffects).2.1 ▸ h.1, slugs_named h.2 (fun slug hslug => ?_)
      (applyEffects_slugs heffects)⟩
    obtain ⟨effect, heffect, hslug⟩ := List.mem_flatMap.mp hslug
    exact hdata effect heffect slug hslug

theorem named_written {data : DdlJobData} (hdata : NamedJob data) (h : NamedSchema db)
    (hw : ReflTransGen (JobWrite pg data) db db') : NamedSchema db' := by
  induction hw with
  | refl => exact h
  | tail _ hw ih => exact named_write hdata ih hw

/-- The names in the metadata and on the queue are accepted ones. -/
structure Named (w : World) : Prop where
  schema : NamedSchema w.db
  jobs : ∀ job ∈ w.jobs, NamedJob job.data

theorem Named.enqueue (h : Named w) {data : DdlJobData} (hdata : NamedJob data) (n : ℕ) :
    ∀ job ∈ (w.enqueue data n).jobs, NamedJob job.data := by
  intro job hjob
  rcases List.mem_append.mp hjob with hjob | hjob
  · exact h.jobs job hjob
  · rw [List.mem_singleton.mp hjob]
    exact hdata

theorem named_transition {e : Event} (h : Named w) (ht : Transition env w e w') : Named w' := by
  cases ht with
  | refused _ => exact ⟨h.schema, h.jobs⟩
  | createTable haccepted => exact ⟨h.schema, h.enqueue (enqueueCreateTable_named haccepted) 2⟩
  | fieldEdit haccepted => exact ⟨h.schema, h.enqueue (enqueueFieldEdit_named haccepted) 1⟩
  | @attempt job faults hmem unfinished =>
    have hrun := Job.run_attempted env job faults w.db
    refine ⟨named_written (h.jobs job hmem) h.schema hrun.written, fun k hk => ?_⟩
    obtain ⟨k₀, hk₀, rfl⟩ := List.mem_map.mp hk
    split
    · rw [hrun.data]
      exact h.jobs job hmem
    · exact h.jobs k₀ hk₀
  | createRow _ _ _ => exact ⟨h.schema, h.jobs⟩
  | updateRow _ _ _ => exact ⟨h.schema, h.jobs⟩

theorem named_reach {Ok : World → Event → Prop} {schema : String} {tables : Tables}
    (h : Reach (step env) Ok (bootstrapped schema tables) w) : Named w :=
  h.invariant ⟨⟨fun _ hm => absurd hm List.not_mem_nil, fun _ hf => absurd hf List.not_mem_nil⟩,
    fun _ hjob => absurd hjob List.not_mem_nil⟩
    fun _ _ _ _ hk _ hs => named_transition hk (transition_of_step hs)

end Named

/-! ### The row queries of a run -/

section Slugs

variable {db : TenantSchema} {tableId : Uuid}

theorem nodup_assignRule {own : List (String × FieldValidationRule)} {rule : FieldValidationRule}
    (h : (own.map Prod.fst).Nodup) : ((assignRule own rule).map Prod.fst).Nodup := by
  unfold assignRule
  split
  · exact h
  split
  · have hkeys : (own.map fun kv => if kv.1 == rule.slug then (rule.slug, rule) else kv).map Prod.fst =
        own.map Prod.fst := by
      rw [List.map_map]
      refine List.map_congr_left fun kv _ => ?_
      by_cases hslug : kv.1 = rule.slug
      · simp [hslug]
      · simp [hslug]
    rwa [hkeys]
  · rename_i hnew
    rw [List.map_append]
    refine List.nodup_append.mpr ⟨h, List.nodup_singleton _, ?_⟩
    rintro a ha b hb rfl
    obtain ⟨kv, hkv, hslug⟩ := List.mem_map.mp ha
    refine hnew (List.any_eq_true.mpr ⟨kv, hkv, ?_⟩)
    rw [beq_iff_eq, hslug]
    exact List.mem_singleton.mp hb

theorem nodup_own : ((fieldsObject db tableId).own.map Prod.fst).Nodup := by
  unfold fieldsObject
  have hfold (rules : List FieldValidationRule) (fields : FieldsObject)
      (h : (fields.own.map Prod.fst).Nodup) :
      ((rules.foldl FieldsObject.assign fields).own.map Prod.fst).Nodup := by
    induction rules generalizing fields with
    | nil => exact h
    | cons rule rules ih =>
      refine ih _ ?_
      unfold FieldsObject.assign
      split
      · exact h
      · exact nodup_assignRule h
  exact hfold _ _ List.nodup_nil

theorem relationJoin_of_rule {kv : String × FieldValidationRule} {j : RelationJoin}
    (h : ((if kv.2.dataType = .RELATION then kv.2.relationTargetTableId.map fun id => (kv.2, id)
      else none).bind (relationJoin db)) = some j) :
    j.slug = kv.2.slug ∧ j.joinAlias = j.slug ++ "__rel" := by
  obtain ⟨relation, hrelation, hj⟩ := Option.bind_eq_some_iff.mp h
  obtain ⟨m, -, rfl⟩ := Option.map_eq_some_iff.mp hj
  split at hrelation
  · obtain ⟨id, -, rfl⟩ := Option.map_eq_some_iff.mp hrelation
    exact ⟨rfl, rfl⟩
  · cases hrelation

theorem relationJoins_eq : relationJoins db tableId = (fieldsObject db tableId).own.filterMap fun kv =>
    (if kv.2.dataType = .RELATION then kv.2.relationTargetTableId.map fun id => (kv.2, id)
      else none).bind (relationJoin db) := by
  rw [relationJoins, relationRules, List.filterMap_filterMap]

theorem relationJoins_slugs :
    ((relationJoins db tableId).map RelationJoin.slug).Nodup ∧
      ∀ slug ∈ (relationJoins db tableId).map RelationJoin.slug, ∃ f ∈ db.metaFields, f.slug = slug := by
  have hown := (fieldsObject_holds db tableId).own
  rw [relationJoins_eq]
  constructor
  · have hkeys : (fieldsObject db tableId).own.map (fun kv => kv.2.slug) =
        (fieldsObject db tableId).own.map Prod.fst :=
      List.map_congr_left fun kv hkv => (hown kv hkv).2.2
    have hnodup : ((fieldsObject db tableId).own.map Prod.fst).Nodup := nodup_own
    rw [← hkeys, List.Nodup, List.pairwise_map] at hnodup
    rw [List.Nodup, List.pairwise_map]
    refine hnodup.filterMap _ fun kv kv' hne j hj j' hj' => ?_
    rw [(relationJoin_of_rule hj).1, (relationJoin_of_rule hj').1]
    exact hne
  · intro slug hslug
    obtain ⟨j, hj, rfl⟩ := List.mem_map.mp hslug
    obtain ⟨kv, hkv, hj⟩ := List.mem_filterMap.mp hj
    obtain ⟨f, hf, hrule⟩ := List.mem_map.mp (hown kv hkv).2.1
    refine ⟨f, List.mem_of_mem_filter hf, ?_⟩
    rw [(relationJoin_of_rule hj).1, ← hrule]
    rfl

theorem relationJoins_aliases : (relationJoins db tableId).map RelationJoin.joinAlias =
    ((relationJoins db tableId).map RelationJoin.slug).map (· ++ "__rel") := by
  rw [List.map_map]
  refine List.map_congr_left fun j hj => ?_
  rw [relationJoins_eq] at hj
  obtain ⟨kv, -, hj⟩ := List.mem_filterMap.mp hj
  exact (relationJoin_of_rule hj).2

end Slugs

theorem buildRowQuery_wellNamed_iff {db : TenantSchema} {name : String} {tableId : Uuid}
    {options : ResolvedRowListQuery} :
    (buildRowQuery db name (fieldsObject db tableId) options).WellNamed ↔
      ((name :: (relationJoins db tableId).map RelationJoin.joinAlias).map
        truncateIdentifier).Nodup :=
  wellNamed_iff

/-- In every run, the names in a table's row queries are distinct and mean their own tables
exactly when the table's name and the slugs of its relations are apart. -/
theorem relation_names_iff {env : Env} {schema : String} {rows : String → List Row} {w : World}
    (h : Reach (step env) (fun _ _ => True) (provisioned schema rows) w) (tableId : Uuid)
    (tableRow : MetaTable) (hmeta : findMetaTableOrThrow w.db tableId = .ok tableRow)
    (options : ResolvedRowListQuery) :
    (buildRowQuery w.db tableRow.name (fieldsObject w.db tableRow.id) options).WellNamed ↔
      NamesApart tableRow.name ((relationJoins w.db tableRow.id).map RelationJoin.slug) := by
  obtain ⟨htables, hfields⟩ := (named_reach h).schema
  obtain ⟨hnodup, hslugs⟩ : ((relationJoins w.db tableRow.id).map RelationJoin.slug).Nodup ∧ _ :=
    relationJoins_slugs
  have hname := sanitizeUserTableName_length (htables tableRow (findMetaTableOrThrow_ok hmeta).1)
  have hlength (slug : String) (hslug : slug ∈ (relationJoins w.db tableRow.id).map RelationJoin.slug) :
      slug.length ≤ MAX_IDENTIFIER_LENGTH := by
    obtain ⟨f, hf, rfl⟩ := hslugs slug hslug
    exact sanitizeUserIdentifier_length (hfields f hf)
  rw [buildRowQuery_wellNamed_iff, ← names_distinct_iff hname hlength hnodup,
    ← relationJoins_aliases]

/-- Where two names clash every listing fails. -/
theorem listing_fails {js : JsRuntime} {sql : SqlOperators} {cfg : Config} {db : TenantSchema}
    {tableId : Uuid} {tableRow : MetaTable} {t : PhysTable} {query : DynamicTableRowQueryDto} {n : ℕ}
    (hmeta : findMetaTableOrThrow db tableId = .ok tableRow)
    (ht : db.tables.lookup tableRow.name = some t)
    (hadm : Admitted js cfg (fieldsObject db tableRow.id) query) (hn : 0 < n)
    (hclash : ∀ options, ¬ (buildRowQuery db tableRow.name (fieldsObject db tableRow.id) options).WellNamed)
    (result : Except HttpError DynamicTableRowPageDto) :
    ListsRows js sql cfg db tableId (query.atPage n) result ↔ result = .error .unexpected := by
  refine (listsRows_atPage hmeta ht hadm hn result).2 fun hruns => ?_
  exact hclash { page := n, pageSize := query.size, sortBy := query.sortBy,
                 sortDirection := query.direction, filters := query.kept }
    (wellNamed_iff.mpr hruns.names)

/-! ### Names of constraints -/

section Constraints

theorem toList_keyName (name slug : String) :
    (name ++ "_" ++ slug ++ "_foreign").toList =
      name.toList ++ '_' :: (slug.toList ++ '_' :: "foreign".toList) := by
  simp

/-- Where one slug goes on with an underscore after the other, their constraints have one name
if it is cut before the slugs differ. -/
theorem foreignKeyName_eq {name a b : String} {more : List Char}
    (hb : b.toList = a.toList ++ '_' :: more) (hlength : 61 ≤ name.length + a.length) :
    foreignKeyName name a = foreignKeyName name b := by
  have hcut : (name.toList ++ '_' :: (a.toList ++ ['_'])).length ≥ MAX_IDENTIFIER_LENGTH := by
    have hmax : MAX_IDENTIFIER_LENGTH = 63 := rfl
    simp only [List.length_append, List.length_cons, List.length_nil, String.length_toList]
    omega
  have hfirst : (name ++ "_" ++ a ++ "_foreign").toList =
      (name.toList ++ '_' :: (a.toList ++ ['_'])) ++ "foreign".toList := by
    rw [toList_keyName]
    simp
  have hsecond : (name ++ "_" ++ b ++ "_foreign").toList =
      (name.toList ++ '_' :: (a.toList ++ ['_'])) ++ (more ++ '_' :: "foreign".toList) := by
    rw [toList_keyName, hb]
    simp
  unfold foreignKeyName
  rw [truncate_eq_iff, String.toList_ofList, String.toList_ofList, ← List.map_take, ← List.map_take,
    hfirst, hsecond, List.take_append_of_le_length hcut, List.take_append_of_le_length hcut]

/-- On a table whose name has at least three letters, relations of one alias have one
constraint name too. -/
theorem foreignKeyName_of_alias {name a b : String} (hname : 3 ≤ name.length)
    (ha : a.length ≤ MAX_IDENTIFIER_LENGTH) (hb : b.length ≤ MAX_IDENTIFIER_LENGTH)
    (h : truncateIdentifier (a ++ "__rel") = truncateIdentifier (b ++ "__rel")) :
    foreignKeyName name a = foreignKeyName name b := by
  have hlonger {a b : String} (hlt : a.length < b.length) (hb : b.length ≤ MAX_IDENTIFIER_LENGTH)
      (h : truncateIdentifier (a ++ "__rel") = truncateIdentifier (b ++ "__rel")) :
      foreignKeyName name a = foreignKeyName name b := by
    rw [truncate_eq_iff, toList_alias, toList_alias] at h
    rw [← String.length_toList, ← String.length_toList (s := b)] at hlt
    rw [← String.length_toList] at hb
    obtain ⟨k, hk, hk5, hlength, hadded⟩ := alias_prefix hlt hb h
    have hshort : 58 ≤ a.toList.length := by
      have hmax : MAX_IDENTIFIER_LENGTH = 63 := rfl
      rcases alias_longer hlt hb h with ⟨hfull, -⟩ | ⟨hsixtyOne, -⟩
      · omega
      · omega
    obtain ⟨j, rfl⟩ : ∃ j, k = j + 1 := ⟨k - 1, by omega⟩
    have hunderscore : suffix.take (j + 1) = '_' :: "_rel".toList.take j := by simp [suffix]
    rw [String.length_toList] at hshort
    exact foreignKeyName_eq (hadded.trans (congrArg _ hunderscore)) (by omega)
  rcases lt_trichotomy a.length b.length with hlt | heq | hgt
  · exact hlonger hlt hb h
  · rw [truncate_eq_iff, toList_alias, toList_alias] at h
    rw [← String.length_toList, ← String.length_toList (s := b)] at heq
    rw [← String.length_toList] at hb
    rw [String.toList_inj.mp (alias_of_length heq hb h)]
  · exact (hlonger hgt ha h.symm).symm

variable {pg : Postgres} {db : TenantSchema} {name a b target : String} {t : PhysTable}
  {required : Bool}

/-- A new relation column is refused the constraint name that another one has. -/
theorem addRelationColumn_refused (ht : db.tables.lookup name = some t)
    (hfree : t.columns.lookup b = none)
    (hkey : (t.foreignKeys.lookup (foreignKeyName name b)).isSome = true) :
    ∃ error, executeStep pg name (.addRelationColumn b target required) db = .error error := by
  simp only [executeStep, hasColumn_of_lookup ht, hfree, Option.isSome_none, Bool.false_eq_true,
    if_false, TenantSchema.addColumn, ht, Option.any_some, hkey, if_true]
  split
  · exact ⟨_, rfl⟩
  · exact ⟨_, rfl⟩

/-- So beside a relation `a` that has its key, no column is made for a relation of the same
alias. -/
theorem second_relation_refused (ht : db.tables.lookup name = some t) (hname : 3 ≤ name.length)
    (ha : a.length ≤ MAX_IDENTIFIER_LENGTH) (hb : b.length ≤ MAX_IDENTIFIER_LENGTH)
    (hfree : t.columns.lookup b = none)
    (hkey : (t.foreignKeys.lookup (foreignKeyName name a)).isSome = true)
    (halias : truncateIdentifier (a ++ "__rel") = truncateIdentifier (b ++ "__rel")) :
    ∃ error, executeStep pg name (.addRelationColumn b target required) db = .error error :=
  addRelationColumn_refused ht hfree (foreignKeyName_of_alias hname ha hb halias ▸ hkey)

end Constraints

/-! ### Names that clash -/

def relationEdit (name : String) : FieldEditDto :=
  { operation := .add, name := name, dataType := some .RELATION, required := none, config := none,
    relatedTableId := some 1 }

/-- Tables `customers` and `orders`, and edits of `orders` one after another. -/
def relationsRun (edits : List FieldEditDto) : List Event :=
  [.createTable (emptyTable "customers"), .attempt 0 [],
    .createTable (emptyTable "orders"), .attempt 2 []] ++
    edits.zipIdx.flatMap fun edit =>
      [.fieldEdit 3 { edits := [edit.1], bytes := 60, edits_ne := List.cons_ne_nil _ _ },
        .attempt (4 + edit.2) []]

/-- The table 3 has `count` relations, and `test` holds of the names in its row query. -/
def namesOfRun (count : ℕ) (test : List String → Bool) (w : World) : Bool :=
  (findMetaTableOrThrow w.db 3).toOption.any fun tableRow =>
    (relationJoins w.db tableRow.id).length == count &&
      test ((tableRow.name :: (relationJoins w.db tableRow.id).map RelationJoin.joinAlias).map
        truncateIdentifier)

theorem namesOfRun_elim {count : ℕ} {test : List String → Bool} {w : World}
    (h : namesOfRun count test w = true) :
    ∃ tableRow, findMetaTableOrThrow w.db 3 = .ok tableRow ∧
      (relationJoins w.db tableRow.id).length = count ∧
      test ((tableRow.name :: (relationJoins w.db tableRow.id).map RelationJoin.joinAlias).map
        truncateIdentifier) = true := by
  unfold namesOfRun at h
  cases hmeta : findMetaTableOrThrow w.db 3 with
  | error e =>
    rw [hmeta] at h
    cases h
  | ok tableRow =>
    rw [hmeta] at h
    obtain ⟨hlength, htest⟩ := Bool.and_eq_true_iff.mp h
    exact ⟨tableRow, rfl, beq_iff_eq.mp hlength, htest⟩

/-- A customer and a payer. -/
theorem relation_names_orders : ∃ w, ∃ tableRow : MetaTable,
    runAll (step plainEnv) (provisioned "tenant_a" fun _ => [])
      (relationsRun [relationEdit "customer", relationEdit "payer"]) = some w ∧
      (relationJoins w.db tableRow.id).length = 2 ∧
      NamesApart tableRow.name ((relationJoins w.db tableRow.id).map RelationJoin.slug) := by
  have hrun : ((runAll (step plainEnv) (provisioned "tenant_a" fun _ => [])
      (relationsRun [relationEdit "customer", relationEdit "payer"])).any
        (namesOfRun 2 fun names => decide names.Nodup)) = true := by
    decide +kernel
  obtain ⟨w, hw, hnames⟩ := (Option.any_eq_true _ _).mp hrun
  obtain ⟨tableRow, hmeta, hlength, hnodup⟩ := namesOfRun_elim hnames
  have hr : Reach (step plainEnv) (fun _ _ => True) (provisioned "tenant_a" fun _ => []) w :=
    .of_runAll (.of_labels (fun _ _ _ => trivial) _) hw
  refine ⟨w, tableRow, hw, hlength, ?_⟩
  exact (relation_names_iff hr 3 tableRow hmeta ⟨1, 50, none, .asc, []⟩).mp
    (buildRowQuery_wellNamed_iff.mpr (of_decide_eq_true hnodup))

/-- After the run the table 3 has `count` relations, and none of its row queries is well
named. -/
def ClashesAfter (run : List Event) (count : ℕ) : Prop :=
  ∃ w, ∃ tableRow : MetaTable,
    runAll (step plainEnv) (provisioned "tenant_a" fun _ => []) run = some w ∧
      findMetaTableOrThrow w.db 3 = .ok tableRow ∧
      (relationJoins w.db tableRow.id).length = count ∧
      ∀ options,
        ¬ (buildRowQuery w.db tableRow.name (fieldsObject w.db tableRow.id) options).WellNamed

theorem clashesAfter {run : List Event} {count : ℕ}
    (h : ((runAll (step plainEnv) (provisioned "tenant_a" fun _ => []) run).any
      (namesOfRun count fun names => !decide names.Nodup)) = true) : ClashesAfter run count := by
  obtain ⟨w, hw, hnames⟩ := (Option.any_eq_true _ _).mp h
  obtain ⟨tableRow, hmeta, hlength, hclash⟩ := namesOfRun_elim hnames
  refine ⟨w, tableRow, hw, hmeta, hlength, fun options hnamed => ?_⟩
  rw [Bool.not_eq_true', decide_eq_false_iff_not] at hclash
  exact hclash (buildRowQuery_wellNamed_iff.mp hnamed)

/-- The table `customer__rel` is named as the alias of its relation `customer` is. -/
theorem table_named_as_alias : ClashesAfter joinNameRun 1 := by
  refine clashesAfter ?_
  decide +kernel

/-- A field of type NUMBER that an edit declares again, as a relation, keeps its column and
gets no key. -/
def redeclared (name : String) : List FieldEditDto :=
  [{ relationEdit name with dataType := some .NUMBER, relatedTableId := none }, relationEdit name]

def letters (n : ℕ) : String := String.ofList (List.replicate n 'a')

/-- With such a field a table has two relations of one alias: a slug of 61 bytes and the
same slug with an underscore after it, or a slug of 63 bytes that is the alias of another. -/
theorem redeclared_aliases_collide :
    ClashesAfter (relationsRun (relationEdit (letters 61) :: redeclared (letters 61 ++ "_"))) 2 ∧
      ClashesAfter (relationsRun (relationEdit (letters 58) :: redeclared (letters 58 ++ "__rel"))) 2 := by
  constructor
  · refine clashesAfter ?_
    decide +kernel
  · refine clashesAfter ?_
    decide +kernel

end Flexi.DynamicTables
