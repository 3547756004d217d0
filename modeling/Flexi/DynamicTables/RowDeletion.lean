import Flexi.DynamicTables.RowListing

/-!
# Deleting a row

Every relation column is a foreign key with `ON DELETE SET NULL`: deleting a row clears
the cells that point at it, unless one of their columns takes no NULL.
-/

namespace Flexi.DynamicTables
open Flexi.Library Flexi.Tenancy Flexi.Tenants

/-! ### The statement -/

/-- Changes tables in place. -/
def mapTables (f : String → PhysTable → PhysTable) (tables : Tables) : Tables :=
  ⟨tables.entries.map (.map id f), by
    rw [List.NodupKeys, List.map₂_keys]
    exact tables.nodupKeys⟩

theorem mapTables_lookup (f : String → PhysTable → PhysTable) (tables : Tables) (n : String) :
    (mapTables f tables).lookup n = (tables.lookup n).map (f n) :=
  List.dlookup_map₂ n

/-- A cell of a foreign key to `target` that holds the id. -/
def clearsCell (target : String) (rowId : ℤ) (t : PhysTable) (row : Row) (column : String) : Bool :=
  (t.columns.lookup column).bind ColumnDef.references == some target &&
    match row column with
    | .int i => i == rowId
    | _ => false

def clearReferences (target : String) (rowId : ℤ) (t : PhysTable) (row : Row) : Row := fun column =>
  if clearsCell target rowId t row column then .null else row column

/-- The rows of a table once the row `rowId` of the table `name` is gone. -/
def remaining (name : String) (rowId : ℤ) (n : String) (t : PhysTable) : List Row :=
  if n = name then t.rows.filter fun row => !hasId rowId row else t.rows

/-- Some cell that would have to be cleared is in a NOT NULL column. -/
def TenantSchema.deletionBlocked (db : TenantSchema) (name : String) (rowId : ℤ) : Bool :=
  db.tables.entries.any fun e => (remaining name rowId e.1 e.2).any fun row =>
    e.2.columns.entries.any fun c =>
      !c.2.nullable && clearsCell (db.schema ++ "." ++ name) rowId e.2 row c.1

/-- The row is gone and the cells that pointed at it are cleared. -/
def TenantSchema.withoutRow (db : TenantSchema) (name : String) (rowId : ℤ) : TenantSchema :=
  { db with
    tables := mapTables (fun n t =>
      { t with
        rows := (remaining name rowId n t).map
          (clearReferences (db.schema ++ "." ++ name) rowId t) }) db.tables }

/-- `DELETE FROM name WHERE id = rowId`, with what its foreign keys do. -/
def TenantSchema.deleteFrom (db : TenantSchema) (name : String) (rowId : ℤ) :
    Except String TenantSchema :=
  if db.deletionBlocked name rowId then .error "null value in column violates not-null constraint"
  else .ok (db.withoutRow name rowId)

def deleteRow (db : TenantSchema) (tableId : Uuid) (rowId : ℤ) : Except HttpError TenantSchema :=
  match findMetaTableOrThrow db tableId with
  | .error e => .error e
  | .ok tableRow =>
    match db.tables.lookup tableRow.name with
    | none => .error .unexpected
    | some t =>
      if !t.rows.any (hasId rowId) then .error (rowNotFound rowId)
      else
        match db.deleteFrom tableRow.name rowId with
        | .error _ => .error .unexpected
        | .ok db' => .ok db'

/-! ### What a deletion should do -/

/-- A relation cell that points at the row `rowId` of the table `name`. -/
def PointsAt (db : TenantSchema) (name : String) (rowId : ℤ) (t : PhysTable) (row : Row)
    (column : String) : Prop :=
  ∃ D, t.columns.lookup column = some D ∧ D.references = some (db.schema ++ "." ++ name) ∧
    row column = .int rowId

/-- The cells that pointed at the row are NULL, the others are what they were. -/
def Cleared (db : TenantSchema) (name : String) (rowId : ℤ) (t : PhysTable) (row row' : Row) :
    Prop :=
  ∀ column, (PointsAt db name rowId t row column → row' column = .null) ∧
    (¬ PointsAt db name rowId t row column → row' column = row column)

/-- Apart from its rows a table is as it was. -/
structure SameTable (t t' : PhysTable) : Prop where
  columns : t'.columns = t.columns
  nextId : t'.nextId = t.nextId
  createdBy : t'.createdBy = t.createdBy
  foreignKeys : t'.foreignKeys = t.foreignKeys

/-- Exactly the row is gone, and exactly the cells that pointed at it are NULL. -/
structure RowDeleted (db db' : TenantSchema) (name : String) (rowId : ℤ) (row : Row) : Prop where
  metadata : db'.schema = db.schema ∧ db'.metaTables = db.metaTables ∧
    db'.metaFields = db.metaFields ∧ db'.metaMigrations = db.metaMigrations
  tables : ∀ n, db'.tables.lookup n = none ↔ db.tables.lookup n = none
  deleted : ∀ t, db.tables.lookup name = some t → ∃ t' before after,
    db'.tables.lookup name = some t' ∧ SameTable t t' ∧ t.rows = before ++ row :: after ∧
    List.Forall₂ (Cleared db name rowId t) (before ++ after) t'.rows
  others : ∀ n, n ≠ name → ∀ t, db.tables.lookup n = some t → ∃ t',
    db'.tables.lookup n = some t' ∧ SameTable t t' ∧
    List.Forall₂ (Cleared db name rowId t) t.rows t'.rows

/-- A row that a request can name: its table is registered, and it has the id, which is
the table's primary key. -/
structure ExistingRow (db : TenantSchema) (tableId : Uuid) (rowId : ℤ) (tableRow : MetaTable)
    (t : PhysTable) (row : Row) : Prop where
  registered : findMetaTableOrThrow db tableId = .ok tableRow
  table : db.tables.lookup tableRow.name = some t
  primary : (t.columns.lookup "id").any ColumnDef.primary = true
  key : t.KeyHolds
  mem : row ∈ t.rows
  id : row "id" = .int rowId

/-- Another row points at the row through a column that takes no NULL. -/
def RequiredReference (db : TenantSchema) (name : String) (rowId : ℤ) : Prop :=
  ∃ n t row column D, db.tables.lookup n = some t ∧ row ∈ t.rows ∧
    (n = name → row "id" ≠ .int rowId) ∧ t.columns.lookup column = some D ∧
    D.references = some (db.schema ++ "." ++ name) ∧ D.nullable = false ∧
    row column = .int rowId

section Deletion

variable {db : TenantSchema} {name : String} {rowId : ℤ} {t : PhysTable} {row : Row}

theorem hasId_iff : hasId rowId row = true ↔ row "id" = .int rowId := by
  unfold hasId
  cases h : row "id" <;> simp

theorem clearsCell_iff {column : String} :
    clearsCell (db.schema ++ "." ++ name) rowId t row column = true ↔
      PointsAt db name rowId t row column := by
  unfold clearsCell PointsAt
  rw [Bool.and_eq_true, beq_iff_eq, Option.bind_eq_some_iff]
  constructor
  · rintro ⟨⟨D, hD, href⟩, hcell⟩
    refine ⟨D, hD, href, ?_⟩
    split at hcell
    · next i hi => rw [hi, beq_iff_eq.mp hcell]
    · cases hcell
  · rintro ⟨D, hD, href, hcell⟩
    refine ⟨⟨D, hD, href⟩, ?_⟩
    rw [hcell]
    exact beq_self_eq_true rowId

theorem clearReferences_cleared :
    Cleared db name rowId t row (clearReferences (db.schema ++ "." ++ name) rowId t row) := by
  intro column
  unfold clearReferences
  constructor
  · intro hpoints
    rw [if_pos (clearsCell_iff.mpr hpoints)]
  · intro hnot
    rw [if_neg fun h => hnot (clearsCell_iff.mp h)]

theorem forall₂_cleared (rows : List Row) :
    List.Forall₂ (Cleared db name rowId t) rows
      (rows.map (clearReferences (db.schema ++ "." ++ name) rowId t)) := by
  rw [List.forall₂_map_right_iff]
  exact List.forall₂_same.mpr fun row _ => clearReferences_cleared

theorem mem_remaining {n : String} :
    row ∈ remaining name rowId n t ↔ row ∈ t.rows ∧ (n = name → row "id" ≠ .int rowId) := by
  unfold remaining
  by_cases hn : n = name
  · simp [hn, ← hasId_iff]
  · simp [hn]

theorem deletionBlocked_iff : db.deletionBlocked name rowId = true ↔
    RequiredReference db name rowId := by
  unfold TenantSchema.deletionBlocked RequiredReference
  simp only [List.any_eq_true, Bool.and_eq_true, Bool.not_eq_true', clearsCell_iff, mem_remaining]
  constructor
  · rintro ⟨⟨n, t⟩, htable, row, ⟨hrow, hid⟩, ⟨column, D⟩, hcolumn, hnullable, D', hD', href, hcell⟩
    obtain rfl : D = D' := Option.some.inj ((AList.mem_lookup_iff.mpr hcolumn).symm.trans hD')
    exact ⟨n, t, row, column, D, AList.mem_lookup_iff.mpr htable, hrow, hid, hD', href, hnullable,
      hcell⟩
  · rintro ⟨n, t, row, column, D, htable, hrow, hid, hD, href, hnullable, hcell⟩
    exact ⟨⟨n, t⟩, AList.mem_lookup_iff.mp htable, row, ⟨hrow, hid⟩, ⟨column, D⟩,
      AList.mem_lookup_iff.mp hD, hnullable, D, hD, href, hcell⟩

theorem remaining_split (hprimary : (t.columns.lookup "id").any ColumnDef.primary = true)
    (hkey : t.KeyHolds) (hmem : row ∈ t.rows) (hid : row "id" = .int rowId) :
    ∃ before after, t.rows = before ++ row :: after ∧
      remaining name rowId name t = before ++ after := by
  obtain ⟨before, after, hrows⟩ := List.append_of_mem hmem
  have hnodup := (hkey hprimary).2
  rw [hrows, List.map_append, List.map_cons, List.nodup_middle, List.nodup_cons,
    ← List.map_append] at hnodup
  have hothers : ∀ other ∈ before ++ after, hasId rowId other = false := by
    intro other hother
    rw [← Bool.not_eq_true, hasId_iff]
    intro hsame
    exact hnodup.1 (List.mem_map.mpr ⟨other, hother, hsame.trans hid.symm⟩)
  refine ⟨before, after, hrows, ?_⟩
  rw [remaining, if_pos rfl, hrows, List.filter_append,
    List.filter_cons_of_neg (by simp [hasId_iff.mpr hid]), ← List.filter_append]
  exact List.filter_eq_self.mpr fun other hother => by rw [hothers other hother]; rfl

theorem withoutRow_lookup (n : String) :
    (db.withoutRow name rowId).tables.lookup n = (db.tables.lookup n).map fun t =>
      { t with
        rows := (remaining name rowId n t).map
          (clearReferences (db.schema ++ "." ++ name) rowId t) } :=
  mapTables_lookup _ db.tables n

theorem withoutRow_rowDeleted (ht : db.tables.lookup name = some t)
    (hprimary : (t.columns.lookup "id").any ColumnDef.primary = true) (hkey : t.KeyHolds)
    (hmem : row ∈ t.rows) (hid : row "id" = .int rowId) :
    RowDeleted db (db.withoutRow name rowId) name rowId row := by
  refine ⟨⟨rfl, rfl, rfl, rfl⟩, ?_, ?_, ?_⟩
  · intro n
    rw [withoutRow_lookup, Option.map_eq_none_iff]
  · intro t₀ ht₀
    obtain rfl : t = t₀ := Option.some.inj (ht.symm.trans ht₀)
    obtain ⟨before, after, hrows, hremaining⟩ : ∃ before after, t.rows = before ++ row :: after ∧
        remaining name rowId name t = before ++ after := remaining_split hprimary hkey hmem hid
    have hlookup : (db.withoutRow name rowId).tables.lookup name = _ := withoutRow_lookup name
    rw [ht, Option.map_some, hremaining] at hlookup
    exact ⟨_, before, after, hlookup, ⟨rfl, rfl, rfl, rfl⟩, hrows, forall₂_cleared _⟩
  · intro n hn u hu
    have hrows : remaining name rowId n u = u.rows := if_neg hn
    have hlookup : (db.withoutRow name rowId).tables.lookup n = _ := withoutRow_lookup n
    rw [hu, Option.map_some, hrows] at hlookup
    exact ⟨_, hlookup, ⟨rfl, rfl, rfl, rfl⟩, forall₂_cleared _⟩

theorem deleteRow_eq {tableId : Uuid} {tableRow : MetaTable}
    (h : ExistingRow db tableId rowId tableRow t row) {db' : TenantSchema} :
    deleteRow db tableId rowId = .ok db' ↔ db.deleteFrom tableRow.name rowId = .ok db' := by
  have hany : t.rows.any (hasId rowId) = true :=
    List.any_eq_true.mpr ⟨row, h.mem, hasId_iff.mpr h.id⟩
  simp only [deleteRow, h.registered, h.table, hany, Bool.not_true, Bool.false_eq_true, if_false]
  cases db.deleteFrom tableRow.name rowId with
  | error e => simp
  | ok db'' => simp

theorem deleteFrom_ok {db' : TenantSchema} : db.deleteFrom name rowId = .ok db' ↔
    db.deletionBlocked name rowId = false ∧ db' = db.withoutRow name rowId := by
  unfold TenantSchema.deleteFrom
  cases db.deletionBlocked name rowId with
  | true => simp
  | false => simp [eq_comm]

end Deletion

/-- A row is deleted, and the relation cells that pointed at it are cleared, exactly when
no other row points at it through a column that takes no NULL. -/
theorem row_deleted_iff (db : TenantSchema) (tableId : Uuid) (rowId : ℤ) (tableRow : MetaTable)
    (t : PhysTable) (row : Row) (h : ExistingRow db tableId rowId tableRow t row) :
    (∃ db', deleteRow db tableId rowId = .ok db' ∧
        RowDeleted db db' tableRow.name rowId row) ↔
      ¬ RequiredReference db tableRow.name rowId := by
  rw [← deletionBlocked_iff, Bool.not_eq_true]
  constructor
  · rintro ⟨db', hdelete, -⟩
    exact (deleteFrom_ok.mp ((deleteRow_eq h).mp hdelete)).1
  · intro hfree
    exact ⟨db.withoutRow tableRow.name rowId, (deleteRow_eq h).mpr (deleteFrom_ok.mpr ⟨hfree, rfl⟩),
      withoutRow_rowDeleted h.table h.primary h.key h.mem h.id⟩

/-! ### Orders that point at a customer -/

/-- Orders get a RELATION field `customer`; one customer and one order of hers. -/
def orderedRun (required : Bool) : List Event :=
  [.createTable (emptyTable "customers"), .attempt 0 [],
    .createTable (emptyTable "orders"), .attempt 2 [],
    .fieldEdit 3 { edits := [{ operation := .add, name := "customer", dataType := some .RELATION,
                               required := some required, config := none,
                               relatedTableId := some 1 }]
                   bytes := 60, edits_ne := by simp },
    .attempt 4 [],
    .createRow "ann" 1 (.obj []) 2,
    .createRow "ann" 3 (.obj [("customer", .num (.finite 1))]) 15]

/-- The first customer is there, and `test` holds of the state. -/
def firstCustomer (test : World → Bool) (w : World) : Bool :=
  (findMetaTableOrThrow w.db 1).toOption.any fun tableRow => tableRow.name == "customers" &&
    (w.db.tables.lookup "customers").any fun t => t.keyed && t.rows.any (hasId 1) && test w

theorem firstCustomer_elim {test : World → Bool} {w : World} (h : firstCustomer test w = true) :
    ∃ tableRow t row, ExistingRow w.db 1 1 tableRow t row ∧ tableRow.name = "customers" ∧
      test w = true := by
  unfold firstCustomer at h
  cases hmeta : findMetaTableOrThrow w.db 1 with
  | error e =>
    rw [hmeta] at h
    cases h
  | ok tableRow =>
    rw [hmeta] at h
    obtain ⟨hname, hlookup⟩ := Bool.and_eq_true_iff.mp h
    obtain ⟨t, ht, htest⟩ := (Option.any_eq_true _ _).mp hlookup
    obtain ⟨hrow, htest⟩ := Bool.and_eq_true_iff.mp htest
    obtain ⟨hkeyed, hany⟩ := Bool.and_eq_true_iff.mp hrow
    obtain ⟨hprimary, hkey⟩ := PhysTable.holds_of_keyed hkeyed
    obtain ⟨row, hmem, hid⟩ := List.any_eq_true.mp hany
    have hname : tableRow.name = "customers" := beq_iff_eq.mp hname
    exact ⟨tableRow, t, row,
      ⟨hmeta, hname ▸ ht, hprimary, hkey, hmem, hasId_iff.mp hid⟩, hname, htest⟩

/-- The order keeps its place without its customer. -/
theorem row_deleted_customer : ∃ w, ∃ tableRow : MetaTable, ∃ row db',
    runAll (step plainEnv) (provisioned "tenant_a" fun _ => []) (orderedRun false) = some w ∧
      deleteRow w.db 1 1 = .ok db' ∧ RowDeleted w.db db' tableRow.name 1 row := by
  have hrun : ((runAll (step plainEnv) (provisioned "tenant_a" fun _ => [])
      (orderedRun false)).any
        (firstCustomer fun w => !w.db.deletionBlocked "customers" 1)) = true := by
    decide +kernel
  obtain ⟨w, hw, hcustomer⟩ := (Option.any_eq_true _ _).mp hrun
  obtain ⟨tableRow, t, row, hrow, hname, hfree⟩ := firstCustomer_elim hcustomer
  have hnone : ¬ RequiredReference w.db tableRow.name 1 := by
    rw [← deletionBlocked_iff, hname, Bool.not_eq_true]
    simpa using hfree
  obtain ⟨db', hdelete, hdeleted⟩ := (row_deleted_iff w.db 1 1 tableRow t row hrow).mpr hnone
  exact ⟨w, tableRow, row, db', hw, hdelete, hdeleted⟩

/-- With a required relation the customer cannot be deleted. -/
theorem required_relation_blocks : ∃ w, ∃ tableRow : MetaTable, ∃ t row,
    runAll (step plainEnv) (provisioned "tenant_a" fun _ => []) (orderedRun true) = some w ∧
      ExistingRow w.db 1 1 tableRow t row ∧ ∀ db', deleteRow w.db 1 1 ≠ .ok db' := by
  have hrun : ((runAll (step plainEnv) (provisioned "tenant_a" fun _ => []) (orderedRun true)).any
      (firstCustomer fun w => w.db.deletionBlocked "customers" 1)) = true := by
    decide +kernel
  obtain ⟨w, hw, hcustomer⟩ := (Option.any_eq_true _ _).mp hrun
  obtain ⟨tableRow, t, row, hrow, hname, hblocked⟩ := firstCustomer_elim hcustomer
  refine ⟨w, tableRow, t, row, hw, hrow, fun db' hdelete => ?_⟩
  have hfree := (deleteFrom_ok.mp ((deleteRow_eq hrow).mp hdelete)).1
  rw [hname, hblocked] at hfree
  cases hfree

end Flexi.DynamicTables
