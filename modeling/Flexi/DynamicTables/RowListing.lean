import Flexi.DynamicTables.RowQuery
import Flexi.Library.Paging
import Mathlib.Data.Prod.Lex
import Mathlib.Data.String.Basic

/-!
# Listing the rows of a table (dynamic-tables.service.ts, `listRows`)

The page query and the count query run against a table's content. Postgres may return any
arrangement of the matching rows that the `ORDER BY` allows, another one for each request.
-/

namespace Flexi.DynamicTables
open Flexi.Library Flexi.Tenancy Flexi.Tenants

/-! ### Operators of Postgres -/

/-- The operators that the two statements use. `operand` is what a bound value is read as
beside a column, `comparable` the pairs of types with an `=`; `le` is the order of the
values that are not NULL. -/
structure SqlOperators where
  operand : PgType → Json → Option Cell
  comparable : PgType → PgType → Bool
  equal : Cell → Cell → Bool
  le : Cell → Cell → Bool
  le_total : ∀ a b, le a b = true ∨ le b a = true
  le_trans : ∀ a b c, le a b = true → le b c = true → le a c = true
  le_int : ∀ i j : ℤ, le (.int i) (.int j) = decide (i ≤ j)

namespace SqlOperators

variable (sql : SqlOperators)

/-- Ascending order; NULL comes last. -/
def ascending (a b : Cell) : Bool := b.isNull || (!a.isNull && sql.le a b)

def ordered : SortDirection → Cell → Cell → Bool
  | .asc, a, b => sql.ascending a b
  | .desc, a, b => sql.ascending b a

/-- `ORDER BY` over the columns in turn. -/
def rowLe : List (String × SortDirection) → Row → Row → Bool
  | [], _, _ => true
  | (column, direction) :: rest, r, r' =>
    sql.ordered direction (r column) (r' column) &&
      (!sql.ordered direction (r' column) (r column) || rowLe rest r r')

/-- `WHERE column = value`, `WHERE column IS NULL` for a null value. -/
def holds (t : PhysTable) (r : Row) (kv : String × Json) : Bool :=
  match t.columns.lookup kv.1 with
  | none => false
  | some d =>
    if isNull kv.2 then (r kv.1).isNull
    else match sql.operand d.type kv.2 with
      | none => false
      | some c => !(r kv.1).isNull && sql.equal (r kv.1) c

/-- The filter names a column and its value can be bound. -/
def filterRuns (t : PhysTable) (kv : String × Json) : Bool :=
  match t.columns.lookup kv.1 with
  | none => false
  | some d => isNull kv.2 || (sql.operand d.type kv.2).isSome

end SqlOperators

/-! ### The page query -/

/-- The join condition compares two columns there are. -/
def RelationJoin.runs (sql : SqlOperators) (db : TenantSchema) (t : PhysTable)
    (j : RelationJoin) : Bool :=
  match t.columns.lookup j.slug, (db.tables.lookup j.target).bind fun u =>
      u.columns.lookup "id" with
  | some d, some key => sql.comparable key.type d.type
  | _, _ => false

/-- The statement is valid: the names in `FROM` differ, and the columns exist; grouping by
`id` covers the other columns where `id` is the primary key. -/
def RowQuery.runs (sql : SqlOperators) (db : TenantSchema) (t : PhysTable) (q : RowQuery) : Bool :=
  decide ((q.table :: q.joins.map RelationJoin.joinAlias).map truncateIdentifier).Nodup &&
  q.joins.all (RelationJoin.runs sql db t) &&
  (!q.groupById || (t.columns.lookup "id").any ColumnDef.primary) &&
  q.filters.all (sql.filterRuns t) &&
  q.orderBy.all fun column => (t.columns.lookup column.1).isSome

/-- The rows of the target that a row points at. -/
def RelationJoin.found (sql : SqlOperators) (db : TenantSchema) (r : Row) (j : RelationJoin) :
    List Row :=
  match db.tables.lookup j.target with
  | none => []
  | some u => u.rows.filter fun v =>
    !(v "id").isNull && !(r j.slug).isNull && sql.equal (v "id") (r j.slug)

/-- The right-hand sides of a `LEFT JOIN` for one row. -/
def RelationJoin.sides (sql : SqlOperators) (db : TenantSchema) (r : Row) (j : RelationJoin) :
    List (Option Row) :=
  if (j.found sql db r).isEmpty then [none] else (j.found sql db r).map some

def joinRow (sql : SqlOperators) (db : TenantSchema) (joins : List RelationJoin) (r : Row) :
    List (List (Option Row)) :=
  joins.foldr (fun j rest => (j.sides sql db r).flatMap fun v => rest.map fun vs => v :: vs) [[]]

def joinRows (sql : SqlOperators) (db : TenantSchema) (joins : List RelationJoin)
    (rows : List Row) :
    List (Row × List (Option Row)) :=
  rows.flatMap fun r => (joinRow sql db joins r).map fun vs => (r, vs)

/-- A row of the result; `related` has the `json_agg` of each relation. -/
structure AggregatedRow where
  row : Row
  related : List (String × List Row)

def sameId (r r' : Row) : Bool :=
  match r "id", r' "id" with
  | .int i, .int j => i == j
  | _, _ => false

/-- `json_agg(alias.*) filter (where alias.id is not null)` of the `n`th join. -/
def aggregated (joined : List (Row × List (Option Row))) (r : Row) (n : ℕ) : List Row :=
  (joined.filter fun x => sameId x.1 r).filterMap fun x => (x.2[n]?).join

/-- `GROUP BY id`: one group for each key, with the columns of its rows and the aggregates
in any order. -/
structure Groups (joined : List (Row × List (Option Row))) (joins : List RelationJoin)
    (L : List AggregatedRow) : Prop where
  keys : L.Pairwise fun g g' => sameId g.row g'.row = false
  rows : ∀ r, (∃ g ∈ L, g.row = r) ↔ ∃ x ∈ joined, x.1 = r
  related : ∀ g ∈ L, List.Forall₂ (fun (j : RelationJoin × ℕ) kv =>
    kv.1 = j.1.slug ∧ kv.2.Perm (aggregated joined g.row j.2)) joins.zipIdx g.related

/-- The rows that the `WHERE` clause keeps. -/
def RowQuery.whereRows (sql : SqlOperators) (t : PhysTable) (q : RowQuery) : List Row :=
  t.rows.filter fun r => q.filters.all (sql.holds t r)

def RowQuery.Selects (sql : SqlOperators) (db : TenantSchema) (t : PhysTable) (q : RowQuery)
    (L : List AggregatedRow) : Prop :=
  if q.groupById then Groups (joinRows sql db q.joins (q.whereRows sql t)) q.joins L
  else L.Perm ((q.whereRows sql t).map fun r => { row := r, related := [] })

/-- What the statement may return: a page of the selected rows in order. -/
def RowQuery.Returns (sql : SqlOperators) (db : TenantSchema) (t : PhysTable) (q : RowQuery)
    (out : List AggregatedRow) : Prop :=
  ∃ L, q.Selects sql db t L ∧ (L.Pairwise fun g g' => sql.rowLe q.orderBy g.row g'.row = true) ∧
    out = (L.drop q.offset).take q.limit

/-! ### The count query -/

def CountQuery.runs (sql : SqlOperators) (t : PhysTable) (q : CountQuery) : Bool :=
  q.filters.all (sql.filterRuns t)

def CountQuery.count (sql : SqlOperators) (t : PhysTable) (q : CountQuery) : ℕ :=
  (t.rows.filter fun r => q.filters.all (sql.holds t r)).length

/-! ### `listRows` -/

/-- An item of the page: the row, and under each relation's slug the row it points at. -/
structure ListedRow where
  row : Row
  relations : List (String × Option Row)

def shapeRelationColumns (fields : FieldsObject) (g : AggregatedRow) : ListedRow :=
  let relationSlugs := (fields.own.filter fun kv => kv.2.dataType = .RELATION).map fun kv =>
      kv.2.slug
  { row := g.row
    relations := relationSlugs.map fun slug => (slug, (g.related.lookup slug).bind List.head?) }

structure DynamicTableRowPageDto where
  items : List ListedRow
  total : ℕ
  page : ℕ
  pageSize : ℕ

/-- The results that a call of `listRows` may have. -/
def ListsRows (js : JsRuntime) (sql : SqlOperators) (cfg : Config) (db : TenantSchema)
    (tableId : Uuid)
    (query : DynamicTableRowQueryDto) (result : Except HttpError DynamicTableRowPageDto) : Prop :=
  match findMetaTableOrThrow db tableId with
  | .error e => result = .error e
  | .ok tableRow =>
    match listRowsQueries js cfg db tableRow query, db.tables.lookup tableRow.name with
    | .error e, _ => result = .error e.toHttpError
    | .ok _, none => result = .error .unexpected
    | .ok listing, some t =>
      if listing.rows.runs sql db t && listing.count.runs sql t then
        ∃ out, listing.rows.Returns sql db t out ∧
          result = .ok { items := out.map (shapeRelationColumns (fieldsObject db tableRow.id))
                         total := listing.count.count sql t
                         page := listing.options.page
                         pageSize := listing.options.pageSize }
      else result = .error .unexpected

/-! ### The order of the rows -/

namespace SqlOperators

variable {sql : SqlOperators}

theorem ascending_total (a b : Cell) : sql.ascending a b = true ∨ sql.ascending b a = true := by
  cases ha : a.isNull with
  | true => simp [ascending, ha]
  | false =>
    cases hb : b.isNull with
    | true => simp [ascending, hb]
    | false => simpa [ascending, ha, hb] using sql.le_total a b

theorem ascending_trans {a b c : Cell} (hab : sql.ascending a b = true)
    (hbc : sql.ascending b c = true) :
    sql.ascending a c = true := by
  cases hc : c.isNull with
  | true => simp [ascending, hc]
  | false =>
    simp only [ascending, hc, Bool.false_or, Bool.and_eq_true, Bool.not_eq_true'] at hbc
    obtain ⟨hb, hle⟩ := hbc
    simp only [ascending, hb, Bool.false_or, Bool.and_eq_true, Bool.not_eq_true'] at hab
    obtain ⟨ha, hle'⟩ := hab
    simp [ascending, ha, sql.le_trans a b c hle' hle]

theorem ordered_total (direction : SortDirection) (a b : Cell) :
    sql.ordered direction a b = true ∨ sql.ordered direction b a = true := by
  cases direction with
  | asc => exact ascending_total a b
  | desc => exact ascending_total b a

theorem ordered_trans {direction : SortDirection} {a b c : Cell}
    (hab : sql.ordered direction a b = true) (hbc : sql.ordered direction b c = true) :
    sql.ordered direction a c = true := by
  cases direction with
  | asc => exact ascending_trans hab hbc
  | desc => exact ascending_trans hbc hab

theorem rowLe_cons {column : String} {direction : SortDirection}
    {rest : List (String × SortDirection)}
    {r r' : Row} : sql.rowLe ((column, direction) :: rest) r r' = true ↔
      sql.ordered direction (r column) (r' column) = true ∧
        (sql.ordered direction (r' column) (r column) = true → sql.rowLe rest r r' = true) := by
  rw [rowLe, Bool.and_eq_true, Bool.or_eq_true, Bool.not_eq_true', ← Bool.not_eq_true,
    imp_iff_not_or]

theorem rowLe_total (columns : List (String × SortDirection)) (r r' : Row) :
    sql.rowLe columns r r' = true ∨ sql.rowLe columns r' r = true := by
  induction columns with
  | nil => exact .inl rfl
  | cons column rest ih =>
    obtain ⟨column, direction⟩ := column
    simp only [rowLe_cons]
    by_cases h : sql.ordered direction (r column) (r' column) = true
    · by_cases h' : sql.ordered direction (r' column) (r column) = true
      · exact ih.imp (fun hle => ⟨h, fun _ => hle⟩) fun hle => ⟨h', fun _ => hle⟩
      · exact .inl ⟨h, fun hback => absurd hback h'⟩
    · have h' := (ordered_total direction (r column) (r' column)).resolve_left h
      exact .inr ⟨h', fun hback => absurd hback h⟩

theorem rowLe_trans {columns : List (String × SortDirection)} {r s t : Row}
    (hrs : sql.rowLe columns r s = true) (hst : sql.rowLe columns s t = true) :
    sql.rowLe columns r t = true := by
  induction columns with
  | nil => rfl
  | cons column rest ih =>
    obtain ⟨column, direction⟩ := column
    rw [rowLe_cons] at hrs hst ⊢
    have hle := ordered_trans hrs.1 hst.1
    refine ⟨hle, fun hback => ?_⟩
    -- the three rows tie in this column
    have hsr := ordered_trans hst.1 hback
    have hts := ordered_trans hback hrs.1
    exact ih (hrs.2 hsr) (hst.2 hts)

theorem rowLe_id {columns : List (String × SortDirection)} {r r' : Row} {i j : ℤ}
    (hi : r "id" = .int i)
    (hj : r' "id" = .int j) (h : sql.rowLe (columns ++ [("id", .asc)]) r r' = true)
    (h' : sql.rowLe (columns ++ [("id", .asc)]) r' r = true) : i = j := by
  induction columns with
  | nil =>
    rw [List.nil_append, rowLe_cons] at h h'
    have hle := h.1
    have hge := h'.1
    simp only [ordered, ascending, hi, hj, Cell.isNull, sql.le_int, Bool.false_or, Bool.not_false,
      Bool.true_and, decide_eq_true_eq] at hle hge
    omega
  | cons column rest ih =>
    obtain ⟨column, direction⟩ := column
    rw [List.cons_append, rowLe_cons] at h h'
    exact ih (h.2 h'.1) (h'.2 h.1)

end SqlOperators

/-! ### The rows of a page -/

/-- While `id` is the primary key, each row has one of its own. -/
def PhysTable.KeyHolds (t : PhysTable) : Prop :=
  (t.columns.lookup "id").any ColumnDef.primary = true →
    (∀ r ∈ t.rows, ∃ i, r "id" = .int i) ∧ (t.rows.map fun r => r "id").Nodup

section Selection

variable {sql : SqlOperators} {db : TenantSchema} {t : PhysTable} {q : RowQuery} {rows : List Row}

theorem joinRow_ne_nil (joins : List RelationJoin) (r : Row) : joinRow sql db joins r ≠ [] := by
  induction joins with
  | nil => simp [joinRow]
  | cons j joins ih =>
    show (j.sides sql db r).flatMap (fun v => (joinRow sql db joins r).map fun vs => v :: vs) ≠ []
    have hside : j.sides sql db r ≠ [] := by
      unfold RelationJoin.sides
      split
      · simp
      · rename_i hfound
        simpa using hfound
    obtain ⟨v, hv⟩ := List.exists_mem_of_ne_nil _ hside
    obtain ⟨vs, hvs⟩ := List.exists_mem_of_ne_nil _ ih
    exact List.ne_nil_of_mem (List.mem_flatMap.mpr ⟨v, hv, List.mem_map.mpr ⟨vs, hvs, rfl⟩⟩)

theorem exists_joinRows {joins : List RelationJoin} {r : Row} :
    (∃ x ∈ joinRows sql db joins rows, x.1 = r) ↔ r ∈ rows := by
  constructor
  · rintro ⟨x, hx, rfl⟩
    obtain ⟨r, hr, hx⟩ := List.mem_flatMap.mp hx
    obtain ⟨vs, -, rfl⟩ := List.mem_map.mp hx
    exact hr
  · intro hr
    obtain ⟨vs, hvs⟩ := List.exists_mem_of_ne_nil _ (joinRow_ne_nil joins r)
    exact ⟨(r, vs), List.mem_flatMap.mpr ⟨r, hr, List.mem_map.mpr ⟨vs, hvs, rfl⟩⟩, rfl⟩

theorem sameId_of_int {r r' : Row} {i : ℤ} (hi : r "id" = .int i) (hj : r' "id" = .int i) :
    sameId r r' = true := by
  simp [sameId, hi, hj]

/-- Grouping by the primary key gives one row of the result for each row selected. -/
theorem groups_perm {joins : List RelationJoin} {L : List AggregatedRow}
    (hint : ∀ r ∈ rows, ∃ i, r "id" = .int i) (hnodup : (rows.map fun r => r "id").Nodup)
    (h : Groups (joinRows sql db joins rows) joins L) : (L.map AggregatedRow.row).Perm rows := by
  have hmem (r : Row) : r ∈ L.map AggregatedRow.row ↔ r ∈ rows := by
    rw [List.mem_map, h.rows r, exists_joinRows]
  have hL : (L.map AggregatedRow.row).Nodup := by
    rw [List.Nodup, List.pairwise_map]
    refine h.keys.imp_of_mem fun {g g'} hg _ hkey heq => ?_
    obtain ⟨i, hi⟩ := hint g.row ((hmem g.row).mp (List.mem_map.mpr ⟨g, hg, rfl⟩))
    rw [sameId_of_int hi (heq ▸ hi)] at hkey
    cases hkey
  exact (List.perm_ext_iff_of_nodup hL hnodup.of_map).mpr hmem

/-- Any arrangement of the rows can come out of the grouping. -/
theorem groups_of_perm {joins : List RelationJoin} {R : List Row}
    (hint : ∀ r ∈ rows, ∃ i, r "id" = .int i) (hnodup : (rows.map fun r => r "id").Nodup)
    (hR : R.Perm rows) :
    ∃ L, Groups (joinRows sql db joins rows) joins L ∧ L.map AggregatedRow.row = R := by
  let aggregate (r : Row) : AggregatedRow :=
    { row := r
      related := joins.zipIdx.map fun j =>
          (j.1.slug, aggregated (joinRows sql db joins rows) r j.2) }
  refine ⟨R.map aggregate, ⟨?_, ?_, ?_⟩, ?_⟩
  · rw [List.pairwise_map]
    have hids : (R.map fun r => r "id").Nodup := (hR.map _).nodup_iff.mpr hnodup
    rw [List.Nodup, List.pairwise_map] at hids
    refine hids.imp_of_mem fun {r r'} hr hr' hne => ?_
    obtain ⟨i, hi⟩ := hint r (hR.mem_iff.mp hr)
    obtain ⟨j, hj⟩ := hint r' (hR.mem_iff.mp hr')
    rw [hi, hj] at hne
    have hij : i ≠ j := fun heq => hne (congrArg _ heq)
    simpa [sameId, hi, hj, aggregate] using hij
  · intro r
    rw [exists_joinRows, ← hR.mem_iff]
    constructor
    · rintro ⟨g, hg, rfl⟩
      obtain ⟨r, hr, rfl⟩ := List.mem_map.mp hg
      exact hr
    · intro hr
      exact ⟨aggregate r, List.mem_map.mpr ⟨r, hr, rfl⟩, rfl⟩
  · intro g hg
    obtain ⟨r, -, rfl⟩ := List.mem_map.mp hg
    show List.Forall₂ _ _ (joins.zipIdx.map _)
    rw [List.forall₂_map_right_iff, List.forall₂_same]
    intro j _
    exact ⟨rfl, .refl _⟩
  · rw [List.map_map]
    exact List.map_id R

theorem selects_iff (hkey : t.KeyHolds) (hruns : q.runs sql db t = true) {R : List Row} :
    (∃ L, q.Selects sql db t L ∧ L.map AggregatedRow.row = R) ↔ R.Perm (q.whereRows sql t) := by
  cases hgroup : q.groupById with
  | false =>
    simp only [RowQuery.Selects, hgroup, Bool.false_eq_true, if_false]
    constructor
    · rintro ⟨L, hL, rfl⟩
      have hmap := hL.map AggregatedRow.row
      rw [List.map_map] at hmap
      simpa [Function.comp_def] using hmap
    · intro hR
      refine ⟨R.map fun r => { row := r, related := [] }, hR.map _, ?_⟩
      rw [List.map_map]
      exact List.map_id R
  | true =>
    have hprimary : (t.columns.lookup "id").any ColumnDef.primary = true := by
      simp only [RowQuery.runs, hgroup, Bool.and_eq_true] at hruns
      simpa using hruns.1.1.2
    obtain ⟨hint, hnodup⟩ := hkey hprimary
    have hsub : (q.whereRows sql t).Sublist t.rows := List.filter_sublist
    have hint' : ∀ r ∈ q.whereRows sql t, ∃ i, r "id" = .int i := fun r hr =>
        hint r (hsub.subset hr)
    have hnodup' := (hsub.map fun r => r "id").nodup hnodup
    simp only [RowQuery.Selects, hgroup, if_true]
    constructor
    · rintro ⟨L, hL, rfl⟩
      exact groups_perm hint' hnodup' hL
    · exact groups_of_perm hint' hnodup'

/-- The pages that the statement may return: those of the arrangements of the rows. -/
theorem returns_iff (hkey : t.KeyHolds) (hruns : q.runs sql db t = true) {xs : List Row} :
    (∃ out, q.Returns sql db t out ∧ out.map AggregatedRow.row = xs) ↔
      ∃ R, Arranges (fun r r' => sql.rowLe q.orderBy r r' = true) (q.whereRows sql t) R ∧
        xs = (R.drop q.offset).take q.limit := by
  constructor
  · rintro ⟨out, ⟨L, hL, hsorted, rfl⟩, rfl⟩
    refine ⟨L.map AggregatedRow.row, ⟨(selects_iff hkey hruns).mp ⟨L, hL, rfl⟩, ?_⟩, ?_⟩
    · rw [List.pairwise_map]
      exact hsorted
    · rw [List.map_take, List.map_drop]
  · rintro ⟨R, ⟨hR, hsorted⟩, rfl⟩
    obtain ⟨L, hL, rfl⟩ := (selects_iff hkey hruns).mpr hR
    rw [List.pairwise_map] at hsorted
    exact ⟨_, ⟨L, hL, hsorted, rfl⟩, by rw [List.map_take, List.map_drop]⟩

end Selection

/-! ### Pages of one query -/

namespace DynamicTableRowQueryDto

variable (query : DynamicTableRowQueryDto)

/-- The same query for another page. -/
def atPage (n : ℕ) : DynamicTableRowQueryDto := { query with page := some (.number (.finite n)) }

def orderBy : List (String × SortDirection) :=
  (query.sortBy.map fun field => (field, query.direction)).toList ++ [("id", .asc)]

/-- The filters that reach the statements. -/
def kept : List (String × Json) := query.entries.filter fun kv => kv.1 ≠ PROTO

end DynamicTableRowQueryDto

/-- The joins of a table's page query. -/
def relationJoins (db : TenantSchema) (tableId : Uuid) : List RelationJoin :=
  (relationRules (fieldsObject db tableId)).filterMap (relationJoin db)

def pageQuery (db : TenantSchema) (tableRow : MetaTable) (query : DynamicTableRowQueryDto) (n : ℕ) :
    RowQuery :=
  { table := tableRow.name, joins := relationJoins db tableRow.id
    groupById := !(relationRules (fieldsObject db tableRow.id)).isEmpty
    filters := query.kept, orderBy := query.orderBy, limit := query.size, offset :=
      (n - 1) * query.size }

def matchingRows (sql : SqlOperators) (t : PhysTable) (query : DynamicTableRowQueryDto) :
    List Row :=
  t.rows.filter fun r => query.entries.all (sql.holds t r)

/-- Every page is answered, `total` counts the matching rows, and the pages together are
these rows in order, each once. -/
structure Partitions (js : JsRuntime) (sql : SqlOperators) (cfg : Config) (db : TenantSchema)
    (tableId : Uuid) (t : PhysTable) (query : DynamicTableRowQueryDto) : Prop where
  answers : ∀ n, 0 < n → ∃ answer, ListsRows js sql cfg db tableId (query.atPage n) (.ok answer)
  total : ∀ n result, 0 < n → ListsRows js sql cfg db tableId (query.atPage n) result →
    ∃ answer, result = .ok answer ∧ answer.total = (matchingRows sql t query).length
  rows : ∀ answer : ℕ → DynamicTableRowPageDto,
    (∀ n, 0 < n → n ≤ pageCount query.size (matchingRows sql t query).length →
      ListsRows js sql cfg db tableId (query.atPage n) (.ok (answer n))) →
    Arranges (fun r r' => sql.rowLe query.orderBy r r' = true) (matchingRows sql t query)
      (pages (fun n => (answer n).items.map ListedRow.row)
        (pageCount query.size (matchingRows sql t query).length))

/-- The two statements are valid. -/
structure ListingRuns (sql : SqlOperators) (db : TenantSchema) (tableRow : MetaTable)
    (t : PhysTable)
    (query : DynamicTableRowQueryDto) : Prop where
  names : ((tableRow.name :: (relationJoins db tableRow.id).map RelationJoin.joinAlias).map
    truncateIdentifier).Nodup
  joins : ∀ j ∈ relationJoins db tableRow.id, j.runs sql db t = true
  key : relationRules (fieldsObject db tableRow.id) ≠ [] →
    (t.columns.lookup "id").any ColumnDef.primary = true
  id : (t.columns.lookup "id").isSome = true
  sortBy : ∀ name, query.sortBy = some name → (t.columns.lookup name).isSome = true
  filters : ∀ kv ∈ query.entries, kv.1 ≠ PROTO → sql.filterRuns t kv = true

/-- The statements are valid, a dropped filter on `__proto__` makes no difference, and no
page boundary cuts a tie. -/
structure PagesHold (sql : SqlOperators) (db : TenantSchema) (tableRow : MetaTable) (t : PhysTable)
    (query : DynamicTableRowQueryDto) : Prop where
  runs : ListingRuns sql db tableRow t query
  proto : ∀ r ∈ t.rows, (∀ kv ∈ query.kept, sql.holds t r kv = true) →
    ∀ kv ∈ query.entries, sql.holds t r kv = true
  ties : TiesTogether (fun r r' => sql.rowLe query.orderBy r r' = true) (matchingRows sql t query)
    query.size

section Pages

variable {js : JsRuntime} {sql : SqlOperators} {cfg : Config} {db : TenantSchema} {tableId : Uuid}
  {tableRow : MetaTable} {t : PhysTable} {query : DynamicTableRowQueryDto} {n : ℕ}

theorem Admitted.atPage {fields : FieldsObject} (h : Admitted js cfg fields query) (hn : 0 < n) :
    Admitted js cfg fields (query.atPage n) where
  page _ hvalue := ⟨n, hn, (Option.some.inj hvalue).symm⟩
  pageSize := h.pageSize
  defaultSize := h.defaultSize
  sortBy := h.sortBy
  sortDirection := h.sortDirection
  isObject := h.isObject
  filters := h.filters

theorem Admitted.size_pos {fields : FieldsObject} (h : Admitted js cfg fields query) :
    0 < query.size := by
  obtain ⟨r, hr⟩ := resolveRowListQuery_admitted h
  obtain ⟨-, hresolves⟩ := resolveRowListQuery_ok hr
  rw [← hresolves.pageSize]
  exact hresolves.positive

theorem listRowsQueries_atPage (hadm : Admitted js cfg (fieldsObject db tableRow.id) query)
    (hn : 0 < n) :
    ∃ listing, listRowsQueries js cfg db tableRow (query.atPage n) = .ok listing ∧
      listing.options.page = n ∧ listing.options.pageSize = query.size ∧
      listing.rows = pageQuery db tableRow query n ∧
      listing.count = { table := tableRow.name, filters := query.kept } := by
  obtain ⟨r, hr⟩ := resolveRowListQuery_admitted (hadm.atPage hn)
  obtain ⟨-, hresolves⟩ := resolveRowListQuery_ok hr
  have hpage : r.page = n := hresolves.page n rfl
  have hsize : r.pageSize = query.size := hresolves.pageSize
  have hsort : r.sortBy = query.sortBy := hresolves.sortBy
  have hdirection : r.sortDirection = query.direction := hresolves.sortDirection
  have hfilters : r.filters = query.kept := (resolvedFilters hr).trans rfl
  refine ⟨{ options := r
            rows := buildRowQuery db tableRow.name (fieldsObject db tableRow.id) r
            count := { table := tableRow.name, filters := r.filters } }, ?_, hpage, hsize, ?_, ?_⟩
  · unfold listRowsQueries
    dsimp only
    rw [hr]
    rfl
  · simp only [buildRowQuery, pageQuery, relationJoins, DynamicTableRowQueryDto.orderBy, hpage,
    hsize, hsort,
      hdirection, hfilters]
  · simp only [hfilters]

theorem runs_pageQuery : (pageQuery db tableRow query n).runs sql db t = true ↔
    ListingRuns sql db tableRow t query := by
  have hfilters : (pageQuery db tableRow query n).filters.all (sql.filterRuns t) = true ↔
      ∀ kv ∈ query.entries, kv.1 ≠ PROTO → sql.filterRuns t kv = true := by
    rw [List.all_eq_true]
    constructor
    · intro h kv hkv hne
      exact h kv (List.mem_filter.mpr ⟨hkv, decide_eq_true hne⟩)
    · intro h kv hkv
      obtain ⟨hkv, hne⟩ := List.mem_filter.mp hkv
      exact h kv hkv (of_decide_eq_true hne)
  have hgroup : (!(pageQuery db tableRow query n).groupById ||
      (t.columns.lookup "id").any ColumnDef.primary) = true ↔
      (relationRules (fieldsObject db tableRow.id) ≠ [] →
        (t.columns.lookup "id").any ColumnDef.primary = true) := by
    rw [pageQuery, Bool.not_not, Bool.or_eq_true, List.isEmpty_iff, ← or_iff_not_imp_left]
  have horder : ((pageQuery db tableRow query n).orderBy.all fun column =>
      (t.columns.lookup column.1).isSome) = true ↔
      (∀ name, query.sortBy = some name → (t.columns.lookup name).isSome = true) ∧
        (t.columns.lookup "id").isSome = true := by
    show (query.orderBy.all _) = true ↔ _
    rw [DynamicTableRowQueryDto.orderBy, List.all_append, Bool.and_eq_true]
    cases query.sortBy with
    | none => simp
    | some name => simp
  rw [RowQuery.runs, Bool.and_eq_true, Bool.and_eq_true, Bool.and_eq_true, Bool.and_eq_true,
    hfilters,
    hgroup, horder, decide_eq_true_eq, List.all_eq_true]
  constructor
  · rintro ⟨⟨⟨⟨hnames, hjoins⟩, hkey⟩, hfilters⟩, hsort, hid⟩
    exact ⟨hnames, hjoins, hkey, hid, hsort, hfilters⟩
  · intro h
    exact ⟨⟨⟨⟨h.names, h.joins⟩, h.key⟩, h.filters⟩, h.sortBy, h.id⟩

/-- The rows that the statements keep. -/
def keptRows (sql : SqlOperators) (t : PhysTable) (query : DynamicTableRowQueryDto) : List Row :=
  t.rows.filter fun r => query.kept.all (sql.holds t r)

/-- The page made of what the two statements return. -/
def pageOf (sql : SqlOperators) (db : TenantSchema) (tableRow : MetaTable) (t : PhysTable)
    (query : DynamicTableRowQueryDto) (n : ℕ) (out : List AggregatedRow) : DynamicTableRowPageDto :=
  { items := out.map (shapeRelationColumns (fieldsObject db tableRow.id))
    total := (keptRows sql t query).length, page := n, pageSize := query.size }

theorem pageOf_rows (out : List AggregatedRow) :
    (pageOf sql db tableRow t query n out).items.map ListedRow.row = out.map AggregatedRow.row := by
  show (out.map _).map ListedRow.row = _
  rw [List.map_map]
  rfl

theorem listsRows_atPage (hmeta : findMetaTableOrThrow db tableId = .ok tableRow)
    (ht : db.tables.lookup tableRow.name = some t)
    (hadm : Admitted js cfg (fieldsObject db tableRow.id) query) (hn : 0 < n)
    (result : Except HttpError DynamicTableRowPageDto) :
    (ListingRuns sql db tableRow t query →
        (ListsRows js sql cfg db tableId (query.atPage n) result ↔
      ∃ out, (pageQuery db tableRow query n).Returns sql db t out ∧
        result = .ok (pageOf sql db tableRow t query n out))) ∧
    (¬ListingRuns sql db tableRow t query →
      (ListsRows js sql cfg db tableId (query.atPage n) result ↔ result = .error .unexpected)) := by
  obtain ⟨listing, hlisting, hpage, hsize, hrows, hcount⟩ := listRowsQueries_atPage hadm hn
  unfold ListsRows
  rw [hmeta]
  dsimp only
  rw [hlisting, ht]
  dsimp only
  rw [hrows, hcount, hpage, hsize]
  constructor
  · intro hruns
    have hcounts : CountQuery.runs sql t { table := tableRow.name, filters :=
      query.kept } = true := by
      rw [CountQuery.runs, List.all_eq_true]
      intro kv hkv
      obtain ⟨hkv, hne⟩ := List.mem_filter.mp hkv
      exact hruns.filters kv hkv (of_decide_eq_true hne)
    rw [runs_pageQuery.mpr hruns, hcounts]
    rfl
  · intro hruns
    have hno : (pageQuery db tableRow query n).runs sql db t = false := by
      rw [← Bool.not_eq_true, runs_pageQuery]
      exact hruns
    rw [hno]
    rfl

/-- Every answer is a page of some arrangement of the rows, and of any arrangement there is
one. -/
theorem listsRows_arranges (hmeta : findMetaTableOrThrow db tableId = .ok tableRow)
    (ht : db.tables.lookup tableRow.name = some t)
    (hadm : Admitted js cfg (fieldsObject db tableRow.id) query) (hkey : t.KeyHolds)
    (hruns : ListingRuns sql db tableRow t query) (hn : 0 < n) :
    (∀ result, ListsRows js sql cfg db tableId (query.atPage n) result →
      ∃ answer, result = .ok answer ∧ answer.total = (keptRows sql t query).length ∧
        ∃ R, Arranges (fun r r' => sql.rowLe query.orderBy r r' = true) (keptRows sql t query) R ∧
          answer.items.map ListedRow.row = page query.size n R) ∧
    ∀ R, Arranges (fun r r' => sql.rowLe query.orderBy r r' = true) (keptRows sql t query) R →
      ∃ answer, ListsRows js sql cfg db tableId (query.atPage n) (.ok answer) ∧
        answer.items.map ListedRow.row = page query.size n R := by
  have hlists := fun result => (listsRows_atPage hmeta ht hadm hn result).1 hruns
  have hreturns {xs : List Row} := @returns_iff sql db t (pageQuery db tableRow query n) hkey
    (runs_pageQuery.mpr hruns) xs
  constructor
  · intro result hresult
    obtain ⟨out, hout, rfl⟩ := (hlists result).mp hresult
    obtain ⟨R, hR, heq⟩ := hreturns.mp ⟨out, hout, rfl⟩
    exact ⟨_, rfl, rfl, R, hR, (pageOf_rows out).trans heq⟩
  · intro R hR
    obtain ⟨out, hout, heq⟩ := hreturns.mpr ⟨R, hR, rfl⟩
    exact ⟨_, (hlists _).mpr ⟨out, hout, rfl⟩, (pageOf_rows out).trans heq⟩

theorem exists_arranges (sql : SqlOperators) (columns : List (String × SortDirection))
    (rows : List Row) :
    ∃ R, Arranges (fun r r' => sql.rowLe columns r r' = true) rows R := by
  have htrans (a b c : Row) (hab : sql.rowLe columns a b = true)
      (hbc : sql.rowLe columns b c = true) :
      sql.rowLe columns a c = true := SqlOperators.rowLe_trans hab hbc
  have htotal (a b : Row) : (sql.rowLe columns a b || sql.rowLe columns b a) = true := by
    rw [Bool.or_eq_true]
    exact SqlOperators.rowLe_total columns a b
  exact ⟨rows.mergeSort (sql.rowLe columns), List.mergeSort_perm _ _,
    List.pairwise_mergeSort htrans htotal rows⟩

theorem matchingRows_sublist : (matchingRows sql t query).Sublist (keptRows sql t query) := by
  have hfilter : matchingRows sql t query =
      (keptRows sql t query).filter fun r => query.entries.all (sql.holds t r) := by
    rw [matchingRows, keptRows, List.filter_filter]
    refine List.filter_congr fun r _ => ?_
    cases hall : query.entries.all (sql.holds t r) with
    | false => rfl
    | true =>
      symm
      rw [Bool.true_and, List.all_eq_true]
      intro kv hkv
      exact List.all_eq_true.mp hall kv (List.mem_of_mem_filter hkv)
  rw [hfilter]
  exact List.filter_sublist

theorem matchingRows_eq_iff : matchingRows sql t query = keptRows sql t query ↔
    ∀ r ∈ t.rows, (∀ kv ∈ query.kept, sql.holds t r kv = true) →
      ∀ kv ∈ query.entries, sql.holds t r kv = true := by
  constructor
  · intro heq r hr hkept
    have hmem : r ∈ keptRows sql t query := List.mem_filter.mpr ⟨hr, List.all_eq_true.mpr hkept⟩
    rw [← heq] at hmem
    exact List.all_eq_true.mp (List.mem_filter.mp hmem).2
  · intro h
    refine List.filter_congr fun r hr => ?_
    rw [Bool.eq_iff_iff, List.all_eq_true, List.all_eq_true]
    constructor
    · intro hall kv hkv
      exact hall kv (List.mem_of_mem_filter hkv)
    · exact h r hr

end Pages

/-- The pages of an admitted query partition the matching rows exactly when the statements
are valid, a dropped filter makes no difference and no page boundary cuts a tie. -/
theorem pages_partition {js : JsRuntime} {sql : SqlOperators} {cfg : Config} {db : TenantSchema}
    {tableId : Uuid} {tableRow : MetaTable} {t : PhysTable} {query : DynamicTableRowQueryDto}
    (hmeta : findMetaTableOrThrow db tableId = .ok tableRow)
    (ht : db.tables.lookup tableRow.name = some t) (hkey : t.KeyHolds)
    (hadm : Admitted js cfg (fieldsObject db tableRow.id) query) :
    Partitions js sql cfg db tableId t query ↔ PagesHold sql db tableRow t query := by
  have hsize := hadm.size_pos
  constructor
  · intro h
    have hruns : ListingRuns sql db tableRow t query := by
      by_contra hno
      obtain ⟨answer, hanswer⟩ := h.answers 1 Nat.one_pos
      have herror := ((listsRows_atPage hmeta ht hadm Nat.one_pos _).2 hno).mp hanswer
      cases herror
    have hlists (n : ℕ) (hn : 0 < n) := listsRows_arranges hmeta ht hadm hkey hruns hn
    obtain ⟨R, hR⟩ := exists_arranges sql query.orderBy (keptRows sql t query)
    have hkept : matchingRows sql t query = keptRows sql t query := by
      obtain ⟨answer, hanswer, -⟩ := (hlists 1 Nat.one_pos).2 R hR
      obtain ⟨answer', heq, htotal⟩ := h.total 1 _ Nat.one_pos hanswer
      obtain ⟨answer'', heq', htotal', -⟩ := (hlists 1 Nat.one_pos).1 _ hanswer
      have hsame : answer' = answer'' := Except.ok.inj (heq.symm.trans heq')
      rw [hsame, htotal'] at htotal
      exact matchingRows_sublist.eq_of_length htotal.symm
    refine ⟨hruns, matchingRows_eq_iff.mp hkept, ?_⟩
    have hrows := h.rows
    rw [hkept] at hrows ⊢
    refine (pages_arrange_iff hsize hR).mp fun rows hpages => ?_
    have hanswers (n : ℕ) : ∃ answer : DynamicTableRowPageDto, 0 < n →
        n ≤ pageCount query.size (keptRows sql t query).length →
          ListsRows js sql cfg db tableId (query.atPage n) (.ok answer) ∧
            answer.items.map ListedRow.row = rows n := by
      by_cases hn : 0 < n ∧ n ≤ pageCount query.size (keptRows sql t query).length
      · obtain ⟨R', hR', heq⟩ := hpages n hn.1 hn.2
        obtain ⟨answer, hanswer, hitems⟩ := (hlists n hn.1).2 R' hR'
        exact ⟨answer, fun _ _ => ⟨hanswer, hitems.trans heq.symm⟩⟩
      · exact ⟨pageOf sql db tableRow t query n [], fun hpos hle => absurd ⟨hpos, hle⟩ hn⟩
    choose answer hanswer using hanswers
    have hpartition := hrows answer fun n hpos hle => (hanswer n hpos hle).1
    rw [pages_congr fun n hpos hle => (hanswer n hpos hle).2] at hpartition
    exact hpartition
  · intro h
    have hlists (n : ℕ) (hn : 0 < n) := listsRows_arranges hmeta ht hadm hkey h.runs hn
    have hkept := matchingRows_eq_iff.mpr h.proto
    have hties := h.ties
    obtain ⟨R, hR⟩ := exists_arranges sql query.orderBy (keptRows sql t query)
    rw [hkept] at hties
    constructor
    · intro n hn
      obtain ⟨answer, hanswer, -⟩ := (hlists n hn).2 R hR
      exact ⟨answer, hanswer⟩
    · intro n result hn hresult
      obtain ⟨answer, rfl, htotal, -⟩ := (hlists n hn).1 result hresult
      exact ⟨answer, rfl, by rw [htotal, hkept]⟩
    · intro answer hanswer
      rw [hkept] at hanswer ⊢
      refine (pages_arrange_iff hsize hR).mpr hties _ fun n hpos hle => ?_
      obtain ⟨answer', heq, -, R', hR', hitems⟩ := (hlists n hpos).1 _ (hanswer n hpos hle)
      cases heq
      exact ⟨R', hR', hitems⟩

theorem PhysTable.KeyHolds.ties {t : PhysTable} (h : t.KeyHolds)
    (hprimary : (t.columns.lookup "id").any ColumnDef.primary = true) (sql : SqlOperators)
    (query : DynamicTableRowQueryDto) :
    TiesTogether (fun r r' => sql.rowLe query.orderBy r r' = true) (matchingRows sql t query)
      query.size := by
  obtain ⟨hint, hnodup⟩ := h hprimary
  refine .of_antisymm fun r hr r' hr' hle hge => ?_
  have hmem := List.mem_of_mem_filter hr
  have hmem' := List.mem_of_mem_filter hr'
  obtain ⟨i, hi⟩ := hint r hmem
  obtain ⟨j, hj⟩ := hint r' hmem'
  have hij : i = j := SqlOperators.rowLe_id hi hj hle hge
  exact List.inj_on_of_nodup_map hnodup hmem hmem' (by rw [hi, hj, hij])

/-! ### Two pages of orders -/

/-- Cells compared by kind, then as numbers, then as texts. -/
def Cell.sortKey : Cell → ℕ ×ₗ ℚ ×ₗ String
  | .null => toLex (0, toLex (0, ""))
  | .int i => toLex (1, toLex ((i : ℚ), ""))
  | .num q => toLex (1, toLex (q, ""))
  | .str s => toLex (2, toLex (0, s))
  | .bool b => toLex (3, toLex (if b then 1 else 0, ""))
  | .instant ms => toLex (4, toLex (ms, ""))
  | .json _ => toLex (5, toLex (0, ""))

def plainSql : SqlOperators where
  operand := plainInput
  comparable a b := a == b
  equal a b := decide (a.sortKey = b.sortKey)
  le a b := decide (a.sortKey ≤ b.sortKey)
  le_total a b := by simpa using le_total a.sortKey b.sortKey
  le_trans a b c hab hbc := by
    rw [decide_eq_true_eq] at hab hbc ⊢
    exact le_trans hab hbc
  le_int i j := by
    rw [decide_eq_decide]
    simp only [Cell.sortKey, Prod.Lex.toLex_le_toLex]
    simp [le_iff_lt_or_eq]

/-- Two rows of `orders` with one title. -/
def ordersRun : List Event :=
  [.createTable ordersTable, .attempt 0 [], .createRow "u1" 1 (.obj [("title", .str "Invoice")]) 20,
    .createRow "u1" 1 (.obj [("title", .str "Invoice")]) 20]

/-- Pages of one row, sorted by title. -/
def oneByOne : DynamicTableRowQueryDto :=
  { sortedBy "title" with pageSize := some (.number (.finite 1)), keys_nodup := no_filters }

def rowId? (r : Row) : Option ℤ :=
  match r "id" with
  | .int i => some i
  | _ => none

/-- `id` is the primary key and numbers the rows. -/
def PhysTable.keyed (t : PhysTable) : Bool :=
  (t.columns.lookup "id").any ColumnDef.primary && t.rows.all (fun r => (rowId? r).isSome) &&
    decide (t.rows.map rowId?).Nodup

theorem PhysTable.holds_of_keyed {t : PhysTable} (h : t.keyed = true) :
    (t.columns.lookup "id").any ColumnDef.primary = true ∧ t.KeyHolds := by
  simp only [PhysTable.keyed, Bool.and_eq_true, decide_eq_true_eq, List.all_eq_true] at h
  obtain ⟨⟨hprimary, hint⟩, hnodup⟩ := h
  refine ⟨hprimary, fun _ => ⟨fun r hr => ?_, ?_⟩⟩
  · have hsome := hint r hr
    unfold rowId? at hsome
    split at hsome
    · rename_i i hi
      exact ⟨i, hi⟩
    · cases hsome
  · rw [List.Nodup, List.pairwise_map] at hnodup ⊢
    refine hnodup.imp fun {r r'} hne heq => hne ?_
    simp only [rowId?, heq]

/-- The query is admitted for the table called `name`, of which `test` holds. -/
def listing (name : String) (tableId : Uuid) (query : DynamicTableRowQueryDto)
    (test : MetaTable → PhysTable → Bool) (w : World) : Bool :=
  (findMetaTableOrThrow w.db tableId).toOption.any fun tableRow => tableRow.name == name &&
    (resolveRowListQuery plainEnv.js {} query (fieldsObject w.db tableRow.id)).isOk &&
    (w.db.tables.lookup name).any fun t => t.keyed && test tableRow t

theorem listing_elim {name : String} {tableId : Uuid} {query : DynamicTableRowQueryDto}
    {test : MetaTable → PhysTable → Bool} {w : World}
    (h : listing name tableId query test w = true) :
    ∃ tableRow t, findMetaTableOrThrow w.db tableId = .ok tableRow ∧ tableRow.name = name ∧
      w.db.tables.lookup tableRow.name = some t ∧ t.keyed = true ∧
      Admitted plainEnv.js {} (fieldsObject w.db tableRow.id) query ∧ test tableRow t = true := by
  unfold listing at h
  cases hmeta : findMetaTableOrThrow w.db tableId with
  | error e =>
    rw [hmeta] at h
    cases h
  | ok tableRow =>
    rw [hmeta] at h
    have h : (tableRow.name == name && _ && _) = true := h
    simp only [Bool.and_eq_true, beq_iff_eq] at h
    obtain ⟨⟨rfl, haccepted⟩, htable⟩ := h
    obtain ⟨t, ht, htest⟩ := (Option.any_eq_true _ _).mp htable
    obtain ⟨hkeyed, htest⟩ := Bool.and_eq_true_iff.mp htest
    refine ⟨tableRow, t, rfl, rfl, ht, hkeyed, ?_, htest⟩
    cases hresult : resolveRowListQuery plainEnv.js {} query (fieldsObject w.db tableRow.id) with
    | error e =>
      rw [hresult] at haccepted
      cases haccepted
    | ok r => exact (resolveRowListQuery_ok hresult).1

theorem pages_partition_orders : ∃ w t, runAll (step plainEnv) (provisioned "tenant_a" fun _ => [])
    ordersRun = some w ∧ w.db.tables.lookup "orders" = some t ∧ t.rows.length = 2 ∧
      Partitions plainEnv.js plainSql {} w.db 1 t oneByOne := by
  have hrun : ((runAll (step plainEnv) (provisioned "tenant_a" fun _ => []) ordersRun).any fun w =>
      listing "orders" 1 oneByOne (fun tableRow t => t.rows.length == 2 &&
        (pageQuery w.db tableRow oneByOne 1).runs plainSql w.db t) w) = true := by
    decide +kernel
  obtain ⟨w, hw, hlisting⟩ := (Option.any_eq_true _ _).mp hrun
  obtain ⟨tableRow, t, hmeta, hname, ht, hkeyed, hadm, htest⟩ := listing_elim hlisting
  obtain ⟨hlength, hruns⟩ := Bool.and_eq_true_iff.mp htest
  obtain ⟨hprimary, hkey⟩ := PhysTable.holds_of_keyed hkeyed
  have hnone : ∀ kv, kv ∉ oneByOne.entries := fun kv => List.not_mem_nil
  have hpages : PagesHold plainSql w.db tableRow t oneByOne :=
    ⟨runs_pageQuery.mp hruns, fun r _ _ kv hkv => absurd hkv (hnone kv), hkey.ties hprimary _ _⟩
  exact ⟨w, t, hw, hname ▸ ht, beq_iff_eq.mp hlength,
      (pages_partition hmeta ht hkey hadm).mpr hpages⟩

/-! ### A base table with the name of a join -/

def emptyTable (name : String) : CreateTableDto := { ordersTable with name := name }

/-- The table `customer__rel` gets a RELATION field `customer`. -/
def joinNameRun : List Event :=
  [.createTable (emptyTable "customers"), .attempt 0 [],
    .createTable (emptyTable "customer__rel"), .attempt 2 [],
    .fieldEdit 3 { edits := [{ operation := .add, name := "customer", dataType := some .RELATION,
                               required := none, config := none, relatedTableId := some 1 }]
                   bytes := 60, edits_ne := by simp },
    .attempt 4 []]

def plainQuery : DynamicTableRowQueryDto :=
  { page := none, pageSize := none, sortBy := none, sortDirection := none, filters := none
    keys_nodup := no_filters }

/-- Every listing of `customer__rel` fails: the join is named as the table is. -/
theorem join_named_as_table : ¬ ∀ (js : JsRuntime) (sql : SqlOperators) (cfg : Config)
    (db : TenantSchema)
    (tableId : Uuid) (tableRow : MetaTable) (t : PhysTable) (query : DynamicTableRowQueryDto),
    findMetaTableOrThrow db tableId = .ok tableRow → db.tables.lookup tableRow.name = some t →
      t.KeyHolds → Admitted js cfg (fieldsObject db tableRow.id) query →
        Partitions js sql cfg db tableId t query := by
  intro hall
  have hrun : ((runAll (step plainEnv) (provisioned "tenant_a" fun _ => []) joinNameRun).any
      fun w =>
      listing "customer__rel" 3 plainQuery (fun tableRow t =>
        !(pageQuery w.db tableRow plainQuery 1).runs plainSql w.db t) w) = true := by
    decide +kernel
  obtain ⟨w, -, hlisting⟩ := (Option.any_eq_true _ _).mp hrun
  obtain ⟨tableRow, t, hmeta, -, ht, hkeyed, hadm, hfails⟩ := listing_elim hlisting
  obtain ⟨-, hkey⟩ := PhysTable.holds_of_keyed hkeyed
  have hno : ¬ListingRuns plainSql w.db tableRow t plainQuery := by
    intro hruns
    rw [runs_pageQuery.mpr hruns] at hfails
    cases hfails
  have hpartition := hall plainEnv.js plainSql {} w.db 3 tableRow t plainQuery hmeta ht hkey hadm
  obtain ⟨answer, hanswer⟩ := hpartition.answers 1 Nat.one_pos
  have herror := ((listsRows_atPage hmeta ht hadm Nat.one_pos _).2 hno).mp hanswer
  cases herror

end Flexi.DynamicTables
