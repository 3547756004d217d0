import Flexi.DynamicTables.Registry

/-!
# The columns of a created table

The system columns around the declared ones, and how a lookup among them comes
out.
-/

namespace Flexi.DynamicTables
open Flexi.Library

/-- The system columns as `createTable` defines them. -/
def systemColumnDefs : List (String × ColumnDef) :=
  [("id", idColumn), (OWNER_COLUMN, ownerColumn), ("created_at", timestampColumn),
    ("updated_at", timestampColumn)]

theorem mem_systemColumns (c : String) :
    c ∈ systemColumns ↔ ∃ d, (c, d) ∈ systemColumnDefs := by
  simp only [systemColumns, systemColumnDefs, OWNER_COLUMN, List.mem_cons, List.not_mem_nil,
    or_false, Prod.mk.injEq]
  constructor
  · rintro (rfl | rfl | rfl | rfl)
    · exact ⟨idColumn, .inl ⟨rfl, rfl⟩⟩
    · exact ⟨ownerColumn, .inr (.inl ⟨rfl, rfl⟩)⟩
    · exact ⟨timestampColumn, .inr (.inr (.inl ⟨rfl, rfl⟩))⟩
    · exact ⟨timestampColumn, .inr (.inr (.inr ⟨rfl, rfl⟩))⟩
  · rintro ⟨d, h⟩
    tauto

theorem shadow_not_system (c : String) : c ++ SHADOW_COLUMN_SUFFIX ∉ systemColumns := by
  intro h
  have hl : (c ++ SHADOW_COLUMN_SUFFIX).toList.getLast? = some 'w' := by
    have hs : SHADOW_COLUMN_SUFFIX.toList = ['_', '_', 's', 'h', 'a', 'd', 'o'] ++ ['w'] := by
      decide
    rw [String.toList_append, hs, ← List.append_assoc, List.getLast?_append]
    rfl
  simp only [systemColumns, List.mem_cons, List.not_mem_nil, or_false] at h
  rcases h with h | h | h | h <;> rw [h] at hl <;> revert hl <;> decide

def DeclaredColumn (field : CreateTableJobField) (c : Σ _ : String, ColumnDef) : Prop :=
  c.1 = field.name ∧ ∃ type, addTypedColumn field.dataType = .ok type ∧
    c.2 = typedColumn type field.required

variable {fields : List CreateTableJobField} {cols declared : List (Σ _ : String, ColumnDef)}

theorem createTableColumns_ok (h : createTableColumns fields = .ok cols) :
    ∃ declared, List.Forall₂ DeclaredColumn fields declared ∧
      cols = [⟨"id", idColumn⟩, ⟨OWNER_COLUMN, ownerColumn⟩] ++ declared ++
        [⟨"created_at", timestampColumn⟩, ⟨"updated_at", timestampColumn⟩] := by
  unfold createTableColumns at h
  obtain ⟨declared, hd, h⟩ := except_bind_ok.mp h
  cases h
  refine ⟨declared, (except_mapM_ok hd).imp fun field c hc => ?_, rfl⟩
  obtain ⟨type, hty, hc⟩ := except_bind_ok.mp hc
  cases hc
  exact ⟨rfl, type, hty, rfl⟩

theorem declared_keys (h : List.Forall₂ DeclaredColumn fields declared) :
    declared.keys = fields.map CreateTableJobField.name := by
  induction h with
  | nil => rfl
  | cons hc _ ih => rw [List.keys_cons, List.map_cons, hc.1, ih]

theorem declared_of_field (h : List.Forall₂ DeclaredColumn fields declared)
    {field : CreateTableJobField} (hf : field ∈ fields) :
    ∃ c ∈ declared, DeclaredColumn field c := by
  induction h with
  | nil => cases hf
  | cons hc _ ih =>
    rcases List.mem_cons.mp hf with rfl | hf
    · exact ⟨_, List.mem_cons_self, hc⟩
    · obtain ⟨c, hm, hd⟩ := ih hf
      exact ⟨c, List.mem_cons_of_mem _ hm, hd⟩

/-- A created table's columns: system columns and declared fields, nothing else,
and no field takes a system name. -/
structure Layout (fields : List CreateTableJobField) (columns : Columns) : Prop where
  system : ∀ c ∈ systemColumnDefs, columns.lookup c.1 = some c.2
  declared : ∀ field ∈ fields, ∃ type, addTypedColumn field.dataType = .ok type ∧
    columns.lookup field.name = some (typedColumn type field.required)
  only : ∀ n d, columns.lookup n = some d →
    n ∈ systemColumns ∨ ∃ field ∈ fields, field.name = n
  names_nodup : (fields.map CreateTableJobField.name).Nodup
  names_free : ∀ field ∈ fields, field.name ∉ systemColumns

theorem createTableColumns_keys (h : List.Forall₂ DeclaredColumn fields declared) :
    List.keys ([⟨"id", idColumn⟩, ⟨OWNER_COLUMN, ownerColumn⟩] ++ declared ++
      [⟨"created_at", timestampColumn⟩, ⟨"updated_at", timestampColumn⟩]) =
      ["id", OWNER_COLUMN] ++ fields.map CreateTableJobField.name ++
        ["created_at", "updated_at"] := by
  rw [← declared_keys h]
  simp [List.keys]

theorem layout_of_createTableColumns (h : createTableColumns fields = .ok cols)
    (hnd : cols.keys.Nodup) : Layout fields cols.toAList := by
  obtain ⟨declared, hd, he⟩ := createTableColumns_ok h
  have hlook : ∀ n d, cols.toAList.lookup n = some d ↔ ⟨n, d⟩ ∈ cols := by
    intro n d
    rw [AList.lookup_to_alist]
    exact List.mem_dlookup_iff hnd
  have hkeys : cols.keys = ["id", OWNER_COLUMN] ++ fields.map CreateTableJobField.name ++
      ["created_at", "updated_at"] := by
    rw [he]
    exact createTableColumns_keys hd
  rw [hkeys, List.nodup_append, List.nodup_append] at hnd
  obtain ⟨⟨-, hnames, hfront⟩, -, hback⟩ := hnd
  refine ⟨?_, ?_, ?_, hnames, ?_⟩
  · intro c hc
    rw [hlook, he]
    simp only [systemColumnDefs, List.mem_cons, List.not_mem_nil, or_false] at hc
    rcases hc with rfl | rfl | rfl | rfl <;> simp
  · intro field hf
    obtain ⟨c, hc, hn, type, hty, hdef⟩ := declared_of_field hd hf
    refine ⟨type, hty, (hlook _ _).mpr ?_⟩
    rw [he, ← hn, ← hdef]
    simp [hc]
  · intro n d hn
    have hm : n ∈ cols.keys := List.mem_keys_of_mem ((hlook n d).mp hn)
    rw [hkeys] at hm
    simp only [List.mem_append, List.mem_cons, List.not_mem_nil, or_false, List.mem_map] at hm
    simp only [systemColumns, List.mem_cons, List.not_mem_nil, or_false]
    rcases hm with ((hm | hm) | ⟨field, hf, hm⟩) | (hm | hm)
    · exact .inl (.inl hm)
    · exact .inl (.inr (.inl hm))
    · exact .inr ⟨field, hf, hm⟩
    · exact .inl (.inr (.inr (.inl hm)))
    · exact .inl (.inr (.inr (.inr hm)))
  · intro field hf hsys
    have hmem : field.name ∈ fields.map CreateTableJobField.name :=
      List.mem_map.mpr ⟨field, hf, rfl⟩
    have hb := hback field.name (List.mem_append_right _ hmem)
    simp only [systemColumns, List.mem_cons, List.not_mem_nil, or_false] at hsys
    rcases hsys with hs | hs | hs | hs
    · exact hfront "id" (by simp) field.name hmem hs.symm
    · exact hfront OWNER_COLUMN (by simp) field.name hmem hs.symm
    · exact hb "created_at" (by simp) hs
    · exact hb "updated_at" (by simp) hs

/-- After the create-table transaction a table is an old one or the one it made. -/
theorem TableRegistered.table_cases {d : CreateTableJobData} {db db' : TenantSchema}
    (h : TableRegistered d db db') {n : String} {t : PhysTable}
    (ht : db'.tables.lookup n = some t) : db.tables.lookup n = some t ∨
      n = d.tableName ∧ db.tables.lookup n = none ∧ t.createdBy = some d.jobId ∧
        Layout d.fields t.columns := by
  rcases h.physical with ⟨-, -, he⟩ | ⟨cols, hnone, hcols, hnd, he⟩
  · rw [he] at ht
    exact .inl ht
  · rw [he] at ht
    by_cases hn : n = d.tableName
    · subst hn
      rw [AList.lookup_insert] at ht
      cases ht
      exact .inr ⟨rfl, hnone, rfl, layout_of_createTableColumns hcols hnd⟩
    · rw [AList.lookup_insert_ne hn] at ht
      exact .inl ht

end Flexi.DynamicTables
