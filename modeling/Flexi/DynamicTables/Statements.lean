import Flexi.DynamicTables.Worker

/-!
# What one statement can do

Each DDL statement that succeeds changes one table, and in it only the columns
it names. These are the only lemmas that look inside the statements.
-/

namespace Flexi.DynamicTables

/-- Of all the schema only the table `name` changed, from `t` to `t'`. -/
structure TableChange (name : String) (t t' : PhysTable) (db db' : TenantSchema) : Prop where
  before : db.tables.lookup name = some t
  after : db'.tables.lookup name = some t'
  others : ∀ n, n ≠ name → db'.tables.lookup n = db.tables.lookup n
  metaTables : db'.metaTables = db.metaTables
  metaFields : db'.metaFields = db.metaFields
  schema : db'.schema = db.schema

/-- `t'` has the rows and columns of `t`, but for the columns `cs`. -/
structure KeepsOutside (cs : List String) (t t' : PhysTable) : Prop where
  createdBy : t'.createdBy = t.createdBy
  columns : ∀ c, c ∉ cs → t'.columns.lookup c = t.columns.lookup c
  rows : List.Forall₂ (fun r r' : Row => ∀ c, c ∉ cs → r' c = r c) t.rows t'.rows

namespace TableChange

variable {name : String} {t t' t'' : PhysTable} {db db' db'' : TenantSchema}

theorem setTable (h : db.tables.lookup name = some t) :
    TableChange name t t' db (db.setTable name t') where
  before := h
  after := db.setTable_lookup name t'
  others := fun _ hn => db.setTable_lookup_ne t' hn
  metaTables := rfl
  metaFields := rfl
  schema := rfl

theorem refl (h : db.tables.lookup name = some t) : TableChange name t t db db where
  before := h
  after := h
  others := fun _ _ => rfl
  metaTables := rfl
  metaFields := rfl
  schema := rfl

theorem trans (h : TableChange name t t' db db') (h' : TableChange name t' t'' db' db'') :
    TableChange name t t'' db db'' where
  before := h.before
  after := h'.after
  others := fun n hn => (h'.others n hn).trans (h.others n hn)
  metaTables := h'.metaTables.trans h.metaTables
  metaFields := h'.metaFields.trans h.metaFields
  schema := h'.schema.trans h.schema

end TableChange

namespace KeepsOutside

variable {cs cs' : List String} {t t' t'' : PhysTable}

theorem refl (t : PhysTable) : KeepsOutside cs t t where
  createdBy := rfl
  columns := fun _ _ => rfl
  rows := List.forall₂_same.mpr fun _ _ _ _ => rfl

theorem trans (h : KeepsOutside cs t t') (h' : KeepsOutside cs t' t'') :
    KeepsOutside cs t t'' where
  createdBy := h'.createdBy.trans h.createdBy
  columns := fun c hc => (h'.columns c hc).trans (h.columns c hc)
  rows := by
    have hr := h.rows
    have hr' := h'.rows
    revert hr hr'
    generalize t.rows = a
    generalize t'.rows = b
    generalize t''.rows = d
    intro hr
    induction hr generalizing d with
    | nil => exact fun hr' => hr'
    | cons hab _ ih =>
      intro hr'
      cases hr' with
      | cons hbc hrest =>
        exact .cons (fun c hc => (hbc c hc).trans (hab c hc)) (ih _ hrest)

theorem mono (h : KeepsOutside cs t t') (hs : ∀ c, c ∈ cs → c ∈ cs') : KeepsOutside cs' t t' where
  createdBy := h.createdBy
  columns := fun c hc => h.columns c fun hm => hc (hs c hm)
  rows := h.rows.imp fun _ _ hr c hc => hr c fun hm => hc (hs c hm)

end KeepsOutside

/-! ### The statements -/

section Statements

variable {db db' : TenantSchema} {name : String}

theorem hasColumn_of_lookup {t : PhysTable} (h : db.tables.lookup name = some t) (c : String) :
    db.hasColumn name c = (t.columns.lookup c).isSome := by
  rw [TenantSchema.hasColumn, h]

theorem forall₂_map_keeps {cs : List String} {f : Row → Row} (rows : List Row)
    (hf : ∀ r c, c ∉ cs → f r c = r c) :
    List.Forall₂ (fun r r' : Row => ∀ c, c ∉ cs → r' c = r c) rows (rows.map f) := by
  induction rows with
  | nil => exact .nil
  | cons r rows ih => exact .cons (hf r) ih

theorem addColumn_ok {column : String} {d : ColumnDef} {key : Option ForeignKey}
    (h : db.addColumn name column d key = .ok db') :
    ∃ t t', TableChange name t t' db db' ∧ KeepsOutside [column] t t' ∧
      t.columns.lookup column = none ∧ t'.columns.lookup column = some d := by
  rw [TenantSchema.addColumn] at h
  cases ht : db.tables.lookup name with
  | none => simp [ht] at h
  | some t =>
    simp only [ht] at h
    split at h
    · cases h
    rename_i hfree
    split at h
    · cases h
    split at h
    · cases h
    split at h
    · cases h
    cases h
    refine ⟨t, _, .setTable ht, ⟨rfl, ?_, ?_⟩, by simpa using hfree, AList.lookup_insert _⟩
    · intro c hc
      exact AList.lookup_insert_ne (by simpa using hc)
    · exact forall₂_map_keeps t.rows fun r c hc => Function.update_of_ne (by simpa using hc) _ _

theorem dropColumn_ok {column : String} (h : db.dropColumn name column = .ok db') :
    ∃ t t', TableChange name t t' db db' ∧ KeepsOutside [column] t t' ∧
      t'.columns.lookup column = none := by
  rw [TenantSchema.dropColumn] at h
  cases ht : db.tables.lookup name with
  | none => simp [ht] at h
  | some t =>
    simp only [ht] at h
    split at h
    · cases h
    split at h
    · cases h
    cases h
    refine ⟨t, _, .setTable ht, ⟨rfl, ?_, ?_⟩, AList.lookup_erase _ _⟩
    · intro c hc
      exact AList.lookup_erase_ne (by simpa using hc)
    · exact forall₂_map_keeps t.rows fun r c hc => Function.update_of_ne (by simpa using hc) _ _

theorem renameColumn_ok {old new : String} (h : db.renameColumn name old new = .ok db') :
    ∃ t t' d, TableChange name t t' db db' ∧ KeepsOutside [old, new] t t' ∧
      t.columns.lookup old = some d ∧ t'.columns.lookup new = some d ∧
      (old ≠ new → t'.columns.lookup old = none) := by
  rw [TenantSchema.renameColumn] at h
  cases ht : db.tables.lookup name with
  | none => simp [ht] at h
  | some t =>
    cases hd : t.columns.lookup old with
    | none => simp [ht, hd] at h
    | some d =>
      simp only [ht, hd] at h
      split at h
      · cases h
      cases h
      refine ⟨t, _, d, .setTable ht, ⟨rfl, ?_, ?_⟩, hd, AList.lookup_insert _, ?_⟩
      · intro c hc
        have hold : c ≠ old := fun he => hc (by simp [he])
        have hnew : c ≠ new := fun he => hc (by simp [he])
        rw [AList.lookup_insert_ne hnew, AList.lookup_erase_ne hold]
      · refine forall₂_map_keeps t.rows fun r c hc => ?_
        have hold : c ≠ old := fun he => hc (by simp [he])
        have hnew : c ≠ new := fun he => hc (by simp [he])
        rw [Function.update_of_ne hnew, Function.update_of_ne hold]
      · intro hne
        rw [AList.lookup_insert_ne hne, AList.lookup_erase]

theorem mapM_update_keeps {f : Row → Option Cell} {column : String} {rows rows' : List Row}
    (h : (rows.mapM fun r => (f r).map fun v => Function.update r column v) = some rows') :
    List.Forall₂ (fun r r' : Row => ∀ c, c ∉ [column] → r' c = r c) rows rows' := by
  induction rows generalizing rows' with
  | nil =>
    cases h
    exact .nil
  | cons r rows ih =>
    rw [List.mapM_cons] at h
    obtain ⟨r', hr, h⟩ := Option.bind_eq_some_iff.mp h
    obtain ⟨rest, hrest, h⟩ := Option.bind_eq_some_iff.mp h
    cases h
    obtain ⟨v, -, rfl⟩ := Option.map_eq_some_iff.mp hr
    refine .cons (fun c hc => ?_) (ih hrest)
    exact Function.update_of_ne (by simpa using hc) _ _

theorem copyColumn_ok {pg : Postgres} {source shadow : String}
    (h : db.copyColumn pg name source shadow = .ok db') :
    ∃ t t', TableChange name t t' db db' ∧ KeepsOutside [shadow] t t' ∧
      t'.columns = t.columns ∧ (t.columns.lookup source).isSome ∧
      (t.columns.lookup shadow).isSome := by
  rw [TenantSchema.copyColumn] at h
  cases ht : db.tables.lookup name with
  | none => simp [ht] at h
  | some t =>
    cases hs : t.columns.lookup source with
    | none => simp [ht, hs] at h
    | some s =>
      cases hd : t.columns.lookup shadow with
      | none => simp [ht, hs, hd] at h
      | some d =>
        simp only [ht, hs, hd] at h
        split at h
        · cases h
        split at h
        · cases h
        rename_i rows hrows
        split at h
        · cases h
        split at h
        · cases h
        cases h
        refine ⟨t, _, .setTable ht, ⟨rfl, fun _ _ => rfl, ?_⟩, rfl, by simp [hs], by simp [hd]⟩
        exact mapM_update_keeps hrows

end Statements

/-! ### Steps of a field edit -/

def FieldEditStep.written : FieldEditStep → List String
  | .addColumn c _ _ _ => [c]
  | .addRelationColumn c _ _ => [c]
  | .dropColumn c => [c]
  | .addShadowColumn s _ _ _ => [s]
  | .backfillColumn _ s => [s]
  | .cutoverColumn c s f => [c, s, f]

section Steps

variable {pg : Postgres} {db db' : TenantSchema} {name : String} {t : PhysTable}

theorem executeStep_addColumn {c : String} {dataType : FieldDataType} {required : Bool}
    {config : Option Json} (ht : db.tables.lookup name = some t)
    (h : executeStep pg name (.addColumn c dataType required config) db = .ok db') :
    ∃ t', TableChange name t t' db db' ∧ KeepsOutside [c] t t' ∧
      (t' = t ∧ (t.columns.lookup c).isSome ∨
        ∃ type, addTypedColumn dataType = .ok type ∧ t.columns.lookup c = none ∧
          t'.columns.lookup c = some (typedColumn type required)) := by
  simp only [executeStep, hasColumn_of_lookup ht] at h
  split at h
  · rename_i hc
    cases h
    exact ⟨t, .refl ht, .refl t, .inl ⟨rfl, hc⟩⟩
  · cases hty : addTypedColumn dataType with
    | error e => simp [hty, bind, Except.bind] at h
    | ok type =>
      simp only [hty, bind, Except.bind] at h
      obtain ⟨t₀, t', hch, hk, hnone, hsome⟩ := addColumn_ok h
      have he : t₀ = t := Option.some.inj (hch.before.symm.trans ht)
      subst he
      exact ⟨t', hch, hk, .inr ⟨type, rfl, hnone, hsome⟩⟩

theorem executeStep_addShadowColumn {c : String} {dataType : FieldDataType} {required : Bool}
    {config : Option Json} (ht : db.tables.lookup name = some t)
    (h : executeStep pg name (.addShadowColumn c dataType required config) db = .ok db') :
    ∃ t', TableChange name t t' db db' ∧ KeepsOutside [c] t t' ∧
      (t' = t ∧ (t.columns.lookup c).isSome ∨
        ∃ type, addTypedColumn dataType = .ok type ∧ t.columns.lookup c = none ∧
          t'.columns.lookup c = some (typedColumn type false)) := by
  have h' : executeStep pg name (.addColumn c dataType false config) db = .ok db' := h
  exact executeStep_addColumn ht h'

theorem executeStep_addRelationColumn {c target : String} {required : Bool}
    (ht : db.tables.lookup name = some t)
    (h : executeStep pg name (.addRelationColumn c target required) db = .ok db') :
    ∃ t', TableChange name t t' db db' ∧ KeepsOutside [c] t t' ∧
      (t' = t ∧ (t.columns.lookup c).isSome ∨
        t.columns.lookup c = none ∧
          t'.columns.lookup c =
            some (addRelationColumn (db.schema ++ "." ++ target) required)) := by
  simp only [executeStep, hasColumn_of_lookup ht] at h
  split at h
  · rename_i hc
    cases h
    exact ⟨t, .refl ht, .refl t, .inl ⟨rfl, hc⟩⟩
  · obtain ⟨t₀, t', hch, hk, hnone, hsome⟩ := addColumn_ok h
    have he : t₀ = t := Option.some.inj (hch.before.symm.trans ht)
    subst he
    exact ⟨t', hch, hk, .inr ⟨hnone, hsome⟩⟩

theorem executeStep_dropColumn {c : String} (ht : db.tables.lookup name = some t)
    (h : executeStep pg name (.dropColumn c) db = .ok db') :
    ∃ t', TableChange name t t' db db' ∧ KeepsOutside [c] t t' ∧
      t'.columns.lookup c = none := by
  simp only [executeStep, hasColumn_of_lookup ht] at h
  split at h
  · rename_i hc
    cases h
    exact ⟨t, .refl ht, .refl t, by simpa using hc⟩
  · obtain ⟨t₀, t', hch, hk, hnone⟩ := dropColumn_ok h
    have he : t₀ = t := Option.some.inj (hch.before.symm.trans ht)
    subst he
    exact ⟨t', hch, hk, hnone⟩

theorem executeStep_backfillColumn {c s : String} (ht : db.tables.lookup name = some t)
    (h : executeStep pg name (.backfillColumn c s) db = .ok db') :
    ∃ t', TableChange name t t' db db' ∧ KeepsOutside [s] t t' ∧
      t'.columns = t.columns ∧ (t.columns.lookup c).isSome ∧ (t.columns.lookup s).isSome := by
  obtain ⟨t₀, t', hch, hk, hcols, hc, hs⟩ := copyColumn_ok h
  have he : t₀ = t := Option.some.inj (hch.before.symm.trans ht)
  subst he
  exact ⟨t', hch, hk, hcols, hc, hs⟩

/-- A cutover moves the shadow column into the place of the dropped one; without
a shadow column it only drops. -/
theorem executeStep_cutoverColumn {c s f : String} (ht : db.tables.lookup name = some t)
    (h : executeStep pg name (.cutoverColumn c s f) db = .ok db') :
    ∃ t', TableChange name t t' db db' ∧ KeepsOutside [c, s, f] t t' ∧
      (s ≠ c → s ≠ f → ∀ d, t.columns.lookup s = some d →
        t'.columns.lookup f = some d ∧ t'.columns.lookup s = none) := by
  simp only [executeStep, hasColumn_of_lookup ht] at h
  split at h
  · rename_i hno
    cases h
    refine ⟨t, .refl ht, .refl t, fun _ _ d hd => ?_⟩
    simp [hd] at hno
  · obtain ⟨db₁, t₁, hch, hk, h⟩ : ∃ db₁ t₁, TableChange name t t₁ db db₁ ∧
        KeepsOutside [c] t t₁ ∧
        (if (t.columns.lookup s).isSome then db₁.renameColumn name s f else pure db₁) =
          .ok db' := by
      split at h
      · cases hd : db.dropColumn name c with
        | error e => simp [hd, bind, Except.bind] at h
        | ok db₁ =>
          obtain ⟨t₀, t₁, hch, hk, -⟩ := dropColumn_ok hd
          have he : t₀ = t := Option.some.inj (hch.before.symm.trans ht)
          subst he
          rw [hd] at h
          exact ⟨db₁, t₁, hch, hk, h⟩
      · exact ⟨db, t, .refl ht, .refl t, h⟩
    have hk' : KeepsOutside [c, s, f] t t₁ := hk.mono fun x hx => by simp_all
    split at h
    · obtain ⟨t₀, t', d, hch', hk₂, hold, hnew, hgone⟩ := renameColumn_ok h
      have he : t₀ = t₁ := Option.some.inj (hch'.before.symm.trans hch.after)
      subst he
      refine ⟨t', hch.trans hch', hk'.trans (hk₂.mono fun x hx => by simp_all), ?_⟩
      intro hsc hsf d' hd'
      have hs₁ : t₀.columns.lookup s = t.columns.lookup s := hk.columns s (by simpa using hsc)
      rw [hs₁, hd'] at hold
      cases hold
      exact ⟨hnew, hgone hsf⟩
    · rename_i hs
      cases h
      refine ⟨t₁, hch, hk', fun _ _ d hd => ?_⟩
      simp [hd] at hs

/-- A step changes its own table, and there only the columns it writes to. -/
theorem executeStep_frame {step : FieldEditStep} (ht : db.tables.lookup name = some t)
    (h : executeStep pg name step db = .ok db') :
    ∃ t', TableChange name t t' db db' ∧ KeepsOutside step.written t t' := by
  cases step with
  | addColumn c dataType required config =>
    obtain ⟨t', hch, hk, -⟩ := executeStep_addColumn ht h
    exact ⟨t', hch, hk⟩
  | dropColumn c =>
    obtain ⟨t', hch, hk, -⟩ := executeStep_dropColumn ht h
    exact ⟨t', hch, hk⟩
  | addShadowColumn s dataType required config =>
    obtain ⟨t', hch, hk, -⟩ := executeStep_addShadowColumn ht h
    exact ⟨t', hch, hk⟩
  | backfillColumn c s =>
    obtain ⟨t', hch, hk, -⟩ := executeStep_backfillColumn ht h
    exact ⟨t', hch, hk⟩
  | cutoverColumn c s f =>
    obtain ⟨t', hch, hk, -⟩ := executeStep_cutoverColumn ht h
    exact ⟨t', hch, hk⟩
  | addRelationColumn c target required =>
    obtain ⟨t', hch, hk, -⟩ := executeStep_addRelationColumn ht h
    exact ⟨t', hch, hk⟩

end Steps

end Flexi.DynamicTables
