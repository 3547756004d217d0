import Flexi.DynamicTables.System

/-!
# The seed tables of a provisioned schema (tenant-seed.service.ts)

The seven tables `bootstrapSeed` creates beside the metadata tables. What rows it
inserts is a parameter: no statement here depends on them.
-/

namespace Flexi.Tenants
open Flexi.DynamicTables

/-- `t.string('id').primary()` -/
def stringKey : ColumnDef :=
  { type := .varchar255, nullable := false, default := none, primary := true, references := none }

def textColumn (nullable : Bool) : ColumnDef :=
  { type := .text, nullable := nullable, default := none, primary := false, references := none }

/-- `.references('id').inTable(...).onDelete('CASCADE')`; only the target matters
here. -/
def seedReference (schema target : String) : ColumnDef :=
  { type := .varchar255, nullable := false, default := none, primary := false,
    references := some (schema ++ "." ++ target) }

def seedTable (columns : List (Σ _ : String, ColumnDef)) (rows : List Row) : PhysTable :=
  { columns := List.toAList (⟨"id", stringKey⟩ :: columns ++
      [⟨"created_at", timestampColumn⟩, ⟨"updated_at", timestampColumn⟩])
    rows := rows, nextId := 1, createdBy := none }

/-- `statuses`, `roles` and `categories` have the same columns. -/
def namedTable : List Row → PhysTable :=
  seedTable [⟨"name", textColumn false⟩, ⟨"description", textColumn true⟩]

/-- The tables of `bootstrapSeed`. -/
def seedTables (schema : String) (rows : String → List Row) : Tables :=
  List.toAList (β := fun _ : String => PhysTable)
  [⟨"system_settings",
      seedTable [⟨"key", textColumn false⟩, ⟨"value", textColumn false⟩] (rows "system_settings")⟩,
   ⟨"statuses", namedTable (rows "statuses")⟩,
   ⟨"roles", namedTable (rows "roles")⟩,
   ⟨"permissions",
      seedTable [⟨"code", textColumn false⟩, ⟨"description", textColumn true⟩] (rows "permissions")⟩,
   ⟨"role_permissions",
      { seedTable [⟨"role_id", seedReference schema "roles"⟩,
          ⟨"permission_id", seedReference schema "permissions"⟩] (rows "role_permissions") with
        foreignKeys := List.toAList (β := fun _ : String => String)
          [⟨foreignKeyName "role_permissions" "role_id", "role_id"⟩,
            ⟨foreignKeyName "role_permissions" "permission_id", "permission_id"⟩] }⟩,
   ⟨"categories", namedTable (rows "categories")⟩,
   ⟨"notification_templates",
      seedTable [⟨"code", textColumn false⟩, ⟨"subject", textColumn false⟩,
        ⟨"body", textColumn false⟩] (rows "notification_templates")⟩]

theorem seedTables_createdBy {schema : String} {rows : String → List Row} {n : String}
    {t : PhysTable} (h : (seedTables schema rows).lookup n = some t) : t.createdBy = none := by
  rw [seedTables, AList.lookup_to_alist] at h
  have hm := List.of_mem_dlookup h
  simp only [List.mem_cons, List.not_mem_nil, or_false, Sigma.mk.injEq, heq_eq_eq] at hm
  rcases hm with h | h | h | h | h | h | h <;> rw [h.2] <;> rfl

/-- The tenant schema provisioning hands over. -/
def provisioned (schema : String) (rows : String → List Row) : World :=
  bootstrapped schema (seedTables schema rows)

end Flexi.Tenants
