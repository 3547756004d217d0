import Flexi.Common.JsonText
import Flexi.DynamicTables.FieldEffects
import Flexi.Tenants.Payload
import Mathlib.Data.List.TakeWhile

/-!
# The field editor (FieldEditor.tsx)

The drafts of one table's fields, the request that is built from them, and the proof that
applying the request to the table leaves the fields of the drafts.
-/

namespace Flexi.Client
open Flexi.Library Flexi.JsonText Flexi.DynamicTables Flexi.Tenants Flexi.Tenancy

/-! ### The table -/

/-- `DynamicTableFieldDefinitionDto` -/
structure FieldDefinition where
  id : String
  name : String
  slug : String
  dataType : FieldDataType
  required : Bool
  config : Option (List (String × Json))
  relationTargetTableId : Option Uuid

def FieldDefinition.field (f : FieldDefinition) : Field where
  slug := f.slug
  dataType := f.dataType
  required := f.required
  config := f.config
  relationTarget := f.relationTargetTableId

/-- A table's detail as the editor receives it. -/
structure TableDetail (nt : NumberText) where
  fields : List FieldDefinition
  ids : (fields.map FieldDefinition.id).Nodup
  slugs : (fields.map FieldDefinition.slug).Nodup
  named : ∀ f ∈ fields, f.name = f.slug
  typed : ∀ f ∈ fields, f.dataType ≠ .RELATION → f.relationTargetTableId = none
  config : ∀ f ∈ fields, ∀ members, f.config = some members → Stable nt (.obj members)

/-- `mapFieldDefinition`; `id` is the row's key. -/
def mapFieldDefinition (id : String) (f : MetaField) : FieldDefinition where
  id := id
  name := f.name
  slug := f.slug
  dataType := f.dataType
  required := f.required
  config := toMetadataConfig f.config
  relationTargetTableId := f.relationTargetTableId

/-! ### Drafts -/

structure ExistingFieldDraft where
  id : String
  name : String
  dataType : FieldDataType
  required : Bool
  config : String
  removed : Bool

/-- `relatedTableId` is `none` for the empty text. -/
structure NewFieldDraft where
  id : ℕ
  name : String
  dataType : FieldDataType
  required : Bool
  config : String
  relatedTableId : Option Uuid

section Drafts

variable (nt : NumberText)

def fieldConfig (config : Option (List (String × Json))) : String :=
  match config with
  | some members => stringify nt 0 (.obj members)
  | none => ""

def createExistingDraft (f : FieldDefinition) : ExistingFieldDraft where
  id := f.id
  name := f.name
  dataType := f.dataType
  required := f.required
  config := fieldConfig nt f.config
  removed := false

def newField (id : ℕ) : NewFieldDraft where
  id := id
  name := ""
  dataType := .STRING
  required := false
  config := ""
  relatedTableId := none

/-- `none` stands for a throw. -/
def parseConfig (value : String) : Option (Option (List (String × Json))) :=
  if trim value = "" then some none
  else match parse nt value with
    | some (.obj members) => some (some members)
    | _ => none

end Drafts

/-! ### The editor -/

structure Editor where
  existingFields : List ExistingFieldDraft
  newFields : List NewFieldDraft
  nextFieldId : ℕ

/-- What the controls of an existing field change. -/
inductive ExistingChange where
  | dataType (dataType : FieldDataType) (offered : dataType ≠ .RELATION)
  | required (required : Bool)
  | config (config : String)

def ExistingFieldDraft.change (d : ExistingFieldDraft) : ExistingChange → ExistingFieldDraft
  | .dataType dataType _ => { d with dataType := dataType }
  | .required required => { d with required := required }
  | .config config => { d with config := config }

inductive NewChange where
  | name (name : String)
  | dataType (dataType : FieldDataType)
  | required (required : Bool)
  | config (config : String)
  | relatedTableId (relatedTableId : Option Uuid)

def NewFieldDraft.change (d : NewFieldDraft) : NewChange → NewFieldDraft
  | .name name => { d with name := name }
  | .dataType dataType =>
    { d with dataType := dataType,
             relatedTableId := if dataType = .RELATION then d.relatedTableId else none }
  | .required required => { d with required := required }
  | .config config => { d with config := config }
  | .relatedTableId relatedTableId => { d with relatedTableId := relatedTableId }

inductive EditorEvent where
  | changeExisting (id : String) (change : ExistingChange)
  | removeExisting (id : String)
  | addNew
  | changeNew (id : ℕ) (change : NewChange)
  | discardNew (id : ℕ)

namespace Editor

/-- The editor as it opens on a table. -/
def ofTable {nt : NumberText} (detail : TableDetail nt) : Editor where
  existingFields := detail.fields.map (createExistingDraft nt)
  newFields := []
  nextFieldId := 1

def updateExisting (s : Editor) (id : String) (changes : ExistingFieldDraft → ExistingFieldDraft) :
    Editor :=
  { s with existingFields := s.existingFields.map fun d => if d.id = id then changes d else d }

def updateNew (s : Editor) (id : ℕ) (changes : NewFieldDraft → NewFieldDraft) : Editor :=
  { s with newFields := s.newFields.map fun d => if d.id = id then changes d else d }

/-- A relation has no controls but its removal. -/
def step (s : Editor) : EditorEvent → Option Editor
  | .changeExisting id change =>
    if s.existingFields.all fun d => d.id != id || d.dataType != .RELATION then
      some (s.updateExisting id fun d => d.change change)
    else none
  | .removeExisting id => some (s.updateExisting id fun d => { d with removed := true })
  | .addNew => some
    { s with newFields := s.newFields ++ [newField s.nextFieldId],
             nextFieldId := s.nextFieldId + 1 }
  | .changeNew id change => some (s.updateNew id fun d => d.change change)
  | .discardNew id => some { s with newFields := s.newFields.filter fun d => d.id != id }

end Editor

/-! ### The request -/

/-- What `buildRequest` collects; an error names its field and its text. -/
structure Collected where
  edits : List FieldEditDto
  allNames : List String
  errors : List (String × String)

def removeEdit (name : String) : FieldEditDto where
  operation := .remove
  name := name
  dataType := none
  required := none
  config := none
  relatedTableId := none

section Request

variable (nt : NumberText) (text : JsText)

/-- The edit of a draft that is not the original's; `config` is what its text was parsed to. -/
def modifyEdit (original : FieldDefinition) (d : ExistingFieldDraft)
    (config : Option (List (String × Json))) : List FieldEditDto :=
  if original.dataType ≠ d.dataType ∨ original.required ≠ d.required ∨
      fieldConfig nt original.config ≠ d.config then
    [{ operation := .modify, name := original.name, dataType := some d.dataType,
       required := some d.required, config := config.map Json.obj, relatedTableId := none }]
  else []

def collectExisting (fields : List FieldDefinition) (c : Collected) (d : ExistingFieldDraft) :
    Collected :=
  match fields.find? fun f => f.id == d.id with
  | none => c
  | some original =>
    if d.removed then { c with edits := c.edits ++ [removeEdit original.name] }
    else
      let c := { c with allNames := c.allNames ++ [text.toLowerCase original.name] }
      if original.dataType = .RELATION then c
      else
        let config := parseConfig nt d.config
        let errors := if config.isSome then []
          else [("existing-" ++ d.id ++ "-config", "dynamicTables.fieldEditor.errors.config")]
        { c with
          errors := c.errors ++ errors
          edits := c.edits ++ modifyEdit nt original d (config.getD none) }

def addEdit (d : NewFieldDraft) (config : Option (List (String × Json))) : FieldEditDto where
  operation := .add
  name := trim d.name
  dataType := some d.dataType
  required := some d.required
  config := config.map Json.obj
  relatedTableId := if d.dataType = .RELATION then d.relatedTableId else none

/-- The error of a new field's name. -/
def nameErrors (allNames : List String) (id : ℕ) (name : String) : List (String × String) :=
  if name = "" then
    [("new-" ++ toString id ++ "-name", "dynamicTables.fieldEditor.errors.fieldName")]
  else if text.toLowerCase name ∈ allNames then
    [("new-" ++ toString id ++ "-name", "dynamicTables.fieldEditor.errors.duplicateField")]
  else []

def collectNew (c : Collected) (d : NewFieldDraft) : Collected :=
  let name := trim d.name
  let duplicate := nameErrors text c.allNames d.id name
  let config := parseConfig nt d.config
  { edits := c.edits ++ [addEdit d (config.getD none)]
    allNames := if duplicate.isEmpty then c.allNames ++ [text.toLowerCase name] else c.allNames
    errors := c.errors ++ duplicate ++
      (if config.isSome then []
        else [("new-" ++ toString d.id ++ "-config", "dynamicTables.fieldEditor.errors.config")]) ++
      if d.dataType = .RELATION ∧ d.relatedTableId = none then
        [("new-" ++ toString d.id ++ "-relation",
          "dynamicTables.fieldEditor.errors.relationTarget")]
      else [] }

def buildRequest (fields : List FieldDefinition) (s : Editor) : Option (List FieldEditDto) :=
  let c := s.existingFields.foldl (collectExisting nt text fields) ⟨[], [], []⟩
  let c := s.newFields.foldl (collectNew nt text) c
  let errors := if c.edits.isEmpty then
    c.errors ++ [("form", "dynamicTables.fieldEditor.errors.noChanges")] else c.errors
  if errors.isEmpty then some c.edits else none

/-! ### The fields of the drafts -/

def draftConfig (config : String) : Option (List (String × Json)) :=
  (parseConfig nt config).getD none

/-- The field that a draft of `f` describes; none if it is marked for removal. -/
def existingField (f : FieldDefinition) (d : ExistingFieldDraft) : List Field :=
  if d.removed then []
  else [{ slug := f.slug, dataType := d.dataType, required := d.required,
          config := draftConfig nt d.config, relationTarget := f.relationTargetTableId }]

def addedField (d : NewFieldDraft) : Field where
  slug := trim d.name
  dataType := d.dataType
  required := d.required
  config := draftConfig nt d.config
  relationTarget := if d.dataType = .RELATION then d.relatedTableId else none

def Editor.fields (fields : List FieldDefinition) (s : Editor) : List Field :=
  (s.existingFields.flatMap fun d =>
    ((fields.find? fun f => f.id == d.id).map fun f => existingField nt f d).getD []) ++
    s.newFields.map (addedField nt)

end Request

/-- An edit on the declared fields. -/
def applyEdit (fields : List Field) (edit : FieldEditDto) : Option (List Field) :=
  (editEffect edit).map (applyToFields fields)

/-! ### The drafts of an editor -/

theorem forall₂_map_right {α β : Type*} {R : α → β → Prop} {l : List α} {l' : List β}
    (h : List.Forall₂ R l l') (g : β → β) (hg : ∀ a, ∀ b ∈ l', R a b → R a (g b)) :
    List.Forall₂ R l (l'.map g) := by
  induction h with
  | nil => exact .nil
  | cons hab _ ih =>
    exact .cons (hg _ _ List.mem_cons_self hab)
      (ih fun a b hb => hg a b (List.mem_cons_of_mem _ hb))

theorem forall₂_map_eq {α β γ : Type*} {R : α → β → Prop} {l : List α} {l' : List β}
    (h : List.Forall₂ R l l') {f : α → γ} {g : β → γ} (hfg : ∀ a b, R a b → f a = g b) :
    l.map f = l'.map g := by
  induction h with
  | nil => rfl
  | cons hab _ ih => rw [List.map_cons, List.map_cons, hfg _ _ hab, ih]

/-- `d` is a draft of `f`. -/
structure DraftOf (nt : NumberText) (f : FieldDefinition) (d : ExistingFieldDraft) : Prop where
  id : d.id = f.id
  relation : f.dataType = .RELATION →
    d.dataType = .RELATION ∧ d.required = f.required ∧ d.config = fieldConfig nt f.config
  typed : f.dataType ≠ .RELATION → d.dataType ≠ .RELATION

section Reached

variable {nt : NumberText} {text : JsText} {detail : TableDetail nt} {s s' : Editor}

theorem draftOf_create (f : FieldDefinition) : DraftOf nt f (createExistingDraft nt f) :=
  ⟨rfl, fun h => ⟨h, rfl, rfl⟩, id⟩

theorem DraftOf.change {f : FieldDefinition} {d : ExistingFieldDraft} (h : DraftOf nt f d)
    (hd : d.dataType ≠ .RELATION) (change : ExistingChange) : DraftOf nt f (d.change change) := by
  have hf : f.dataType ≠ .RELATION := fun hf => hd (h.relation hf).1
  refine ⟨?_, fun hrelation => absurd hrelation hf, fun _ => ?_⟩
  · cases change <;> exact h.id
  · cases change with
    | dataType dataType offered => exact offered
    | required | config => exact hd

theorem drafts_step {e : EditorEvent}
    (h : List.Forall₂ (DraftOf nt) detail.fields s.existingFields) (hs : s.step e = some s') :
    List.Forall₂ (DraftOf nt) detail.fields s'.existingFields := by
  have hupdate (changes : ExistingFieldDraft → ExistingFieldDraft) (id : String)
      (hchanges : ∀ f d, d ∈ s.existingFields → d.id = id → DraftOf nt f d →
        DraftOf nt f (changes d)) :
      List.Forall₂ (DraftOf nt) detail.fields (s.updateExisting id changes).existingFields := by
    refine forall₂_map_right h _ fun f d hd hdraft => ?_
    split
    · rename_i hid
      exact hchanges f d hd hid hdraft
    · exact hdraft
  cases e with
  | changeExisting id change =>
    obtain ⟨hall, hs⟩ := Option.ite_none_right_eq_some.mp hs
    cases hs
    refine hupdate _ id fun f d hd hid hdraft => hdraft.change ?_ change
    have hrelation := List.all_eq_true.mp hall d hd
    simpa [hid] using hrelation
  | removeExisting id =>
    cases hs
    exact hupdate _ id fun f d _ _ hdraft => ⟨hdraft.id, hdraft.relation, hdraft.typed⟩
  | addNew | discardNew id | changeNew id change =>
    cases hs
    exact h

theorem drafts_reach (h : Reach Editor.step (fun _ _ => True) (.ofTable detail) s) :
    List.Forall₂ (DraftOf nt) detail.fields s.existingFields := by
  refine h.invariant ?_ fun _ _ _ _ hdrafts _ hs => drafts_step hdrafts hs
  rw [Editor.ofTable, List.forall₂_map_right_iff]
  exact List.forall₂_same.mpr fun f _ => draftOf_create f

end Reached

/-! ### What is collected -/

section Collecting

variable {nt : NumberText} {text : JsText} {detail : TableDetail nt} {f : FieldDefinition}
  {d : ExistingFieldDraft}

theorem find_original (hf : f ∈ detail.fields) (hid : d.id = f.id) :
    (detail.fields.find? fun g => g.id == d.id) = some f := by
  rw [hid]
  cases hfind : detail.fields.find? fun g => g.id == f.id with
  | none =>
    have hno := List.find?_eq_none.mp hfind f hf
    exact absurd (beq_self_eq_true f.id) hno
  | some g =>
    have hg := List.find?_some hfind
    rw [List.inj_on_of_nodup_map detail.ids (List.mem_of_find?_eq_some hfind) hf (beq_iff_eq.mp hg)]

/-- The edits a draft of `f` contributes. -/
def existingEdits (nt : NumberText) (f : FieldDefinition) (d : ExistingFieldDraft) :
    List FieldEditDto :=
  if d.removed then [removeEdit f.name]
  else if f.dataType = .RELATION then []
  else modifyEdit nt f d (draftConfig nt d.config)

/-- The names that the new fields must not take. -/
def keptNames (text : JsText) (f : FieldDefinition) (d : ExistingFieldDraft) : List String :=
  if d.removed then [] else [text.toLowerCase f.name]

theorem collectExisting_spec (c : Collected) (hf : f ∈ detail.fields) (hid : d.id = f.id) :
    (collectExisting nt text detail.fields c d).edits = c.edits ++ existingEdits nt f d ∧
    (collectExisting nt text detail.fields c d).allNames = c.allNames ++ keptNames text f d ∧
    ((collectExisting nt text detail.fields c d).errors = [] → c.errors = []) := by
  unfold collectExisting existingEdits keptNames
  rw [find_original hf hid]
  dsimp only
  split
  · exact ⟨rfl, (List.append_nil _).symm, id⟩
  · split
    · exact ⟨(List.append_nil _).symm, rfl, id⟩
    · exact ⟨rfl, rfl, fun h => (List.append_eq_nil_iff.mp h).1⟩

theorem collectExistings_spec {fs : List FieldDefinition} {ds : List ExistingFieldDraft}
    (h : List.Forall₂ (DraftOf nt) fs ds) (hfs : ∀ f ∈ fs, f ∈ detail.fields) (c : Collected) :
    (ds.foldl (collectExisting nt text detail.fields) c).edits =
      c.edits ++ (fs.zip ds).flatMap (fun p => existingEdits nt p.1 p.2) ∧
    (ds.foldl (collectExisting nt text detail.fields) c).allNames =
      c.allNames ++ (fs.zip ds).flatMap (fun p => keptNames text p.1 p.2) ∧
    ((ds.foldl (collectExisting nt text detail.fields) c).errors = [] → c.errors = []) := by
  induction h generalizing c with
  | nil => exact ⟨(List.append_nil _).symm, (List.append_nil _).symm, id⟩
  | @cons f d fs ds hdraft _ ih =>
    obtain ⟨hedits, hnames, herrors⟩ :=
      @collectExisting_spec nt text detail f d c (hfs f List.mem_cons_self) hdraft.id
    obtain ⟨hedits', hnames', herrors'⟩ := ih (fun g hg => hfs g (List.mem_cons_of_mem f hg))
      (collectExisting nt text detail.fields c d)
    refine ⟨?_, ?_, fun h => herrors (herrors' h)⟩
    · rw [List.foldl_cons, hedits', hedits, List.append_assoc]
      rfl
    · rw [List.foldl_cons, hnames', hnames, List.append_assoc]
      rfl

/-- The new drafts of a request without errors. -/
def NewOk (text : JsText) : List String → List NewFieldDraft → Prop
  | _, [] => True
  | allNames, d :: ds => text.toLowerCase (trim d.name) ∉ allNames ∧
    (d.dataType = .RELATION → d.relatedTableId ≠ none) ∧
      NewOk text (allNames ++ [text.toLowerCase (trim d.name)]) ds

theorem collectNews_spec (ds : List NewFieldDraft) (c : Collected) :
    (ds.foldl (collectNew nt text) c).edits =
      c.edits ++ ds.map (fun d => addEdit d (draftConfig nt d.config)) ∧
    ((ds.foldl (collectNew nt text) c).errors = [] → c.errors = [] ∧ NewOk text c.allNames ds) := by
  induction ds generalizing c with
  | nil => exact ⟨(List.append_nil _).symm, fun h => ⟨h, trivial⟩⟩
  | cons d ds ih =>
    obtain ⟨hedits, herrors⟩ := ih (collectNew nt text c d)
    constructor
    · rw [List.foldl_cons, hedits, collectNew, List.append_assoc]
      rfl
    · intro h
      obtain ⟨hone, hrest⟩ := herrors h
      simp only [collectNew, List.append_eq_nil_iff] at hone
      obtain ⟨⟨⟨hold, hname⟩, -⟩, hrelation⟩ := hone
      refine ⟨hold, ?_, ?_, ?_⟩
      · intro hmem
        unfold nameErrors at hname
        split at hname
        · cases hname
        · cases hname
      · intro htype hnone
        rw [if_pos ⟨htype, hnone⟩] at hrelation
        cases hrelation
      · rw [collectNew] at hrest
        dsimp only at hrest
        rw [hname] at hrest
        exact hrest

end Collecting

/-! ### Applying the request -/

section Applying

variable {nt : NumberText} {text : JsText} {detail : TableDetail nt} {f : FieldDefinition}
  {d : ExistingFieldDraft} {s : Editor} {edits : List FieldEditDto}

theorem trim_nonempty {value : String} {c : Char} {cs : List Char} (hvalue : value.toList = c :: cs)
    (hc : isJsSpace c = false) : trim value ≠ "" := by
  intro htrim
  have hlist := congrArg String.toList htrim
  rw [trim, String.toList_ofList, hvalue, List.dropWhile_cons_of_neg (by rw [hc]; decide)] at hlist
  have hall := List.dropWhile_eq_nil_iff.mp (List.reverse_eq_nil_iff.mp hlist) c
    (List.mem_reverse.mpr List.mem_cons_self)
  rw [hc] at hall
  cases hall

theorem draftConfig_fieldConfig (hf : f ∈ detail.fields) :
    draftConfig nt (fieldConfig nt f.config) = f.config := by
  have hempty : trim "" = "" := by decide
  unfold draftConfig fieldConfig
  cases hconfig : f.config with
  | none =>
    dsimp only
    rw [parseConfig, if_pos hempty]
    rfl
  | some members =>
    have hstable := detail.config f hf members hconfig
    have htext : (stringify nt 0 (.obj members)).toList = writeValue nt 0 0 (.obj members) :=
      String.toList_ofList
    have hhead : ∃ cs, writeValue nt 0 0 (.obj members) = '\x7b' :: cs := by
      cases members <;> exact ⟨_, by rw [writeValue]⟩
    obtain ⟨cs, hhead⟩ := hhead
    dsimp only
    rw [parseConfig, if_neg (trim_nonempty (htext.trans hhead) (by decide)),
      parse_stringify hstable]
    rfl

theorem toMetadataConfig_map (config : Option (List (String × Json))) :
    toMetadataConfig (config.map Json.obj) = config := by
  cases config <;> rfl

theorem editEffect_of_accepted {edit : FieldEditDto} {dataType : FieldDataType}
    (haccepted : ∃ column, sanitizeUserIdentifier edit.name = .ok column)
    (hoperation : edit.operation = .modify) (htype : edit.dataType = some dataType)
    (hrelation : dataType ≠ .RELATION) :
    editEffect edit = some (.upsertField edit.name edit.name dataType (edit.required.getD false)
      edit.config none) := by
  obtain ⟨column, hcolumn⟩ := haccepted
  obtain rfl := sanitizeUserIdentifier_ok hcolumn
  unfold editEffect
  rw [hcolumn, hoperation, htype]
  cases dataType with
  | RELATION => exact absurd rfl hrelation
  | _ => rfl

/-- The edits of one draft turn its field into what the draft says, and leave the others. -/
theorem applyEdits_existing (hf : f ∈ detail.fields) (hdraft : DraftOf nt f d)
    {done rest : List Field} (hdone : ∀ g ∈ done, g.slug ≠ f.slug)
    (hrest : ∀ g ∈ rest, g.slug ≠ f.slug)
    (haccepted : ∀ e ∈ existingEdits nt f d, ∃ column, sanitizeUserIdentifier e.name = .ok column) :
    (existingEdits nt f d).foldlM applyEdit (done ++ f.field :: rest) =
      some (done ++ existingField nt f d ++ rest) := by
  have hname := detail.named f hf
  have hsame (hd : d.dataType = f.dataType) (hrequired : d.required = f.required)
      (hconfig : d.config = fieldConfig nt f.config) :
      ({ slug := f.slug, dataType := d.dataType, required := d.required,
         config := draftConfig nt d.config, relationTarget := f.relationTargetTableId } : Field) =
        f.field := by
    rw [hd, hrequired, hconfig, draftConfig_fieldConfig hf]
    rfl
  unfold existingEdits at haccepted ⊢
  unfold existingField
  split at haccepted
  · rename_i hremoved
    obtain ⟨column, hcolumn⟩ := haccepted _ List.mem_cons_self
    obtain rfl := sanitizeUserIdentifier_ok hcolumn
    have heffect : editEffect (removeEdit f.name) = some (.removeField f.field.slug) := by
      unfold editEffect
      rw [hcolumn]
      exact congrArg (fun slug => some (FieldMetadataEffect.removeField slug)) hname
    rw [if_pos hremoved, if_pos hremoved, List.foldlM_cons, applyEdit, heffect, Option.map_some,
      applyToFields_remove hdone hrest, List.append_nil]
    rfl
  · rename_i hkept
    rw [if_neg hkept, if_neg hkept, List.append_assoc, List.singleton_append]
    split at haccepted
    · rename_i hrelation
      obtain ⟨htype, hrequired, hconfig⟩ := hdraft.relation hrelation
      rw [if_pos hrelation, hsame (htype.trans hrelation.symm) hrequired hconfig]
      rfl
    · rename_i hrelation
      rw [if_neg hrelation]
      unfold modifyEdit at haccepted ⊢
      split at haccepted
      · rename_i hchanged
        have heffect := editEffect_of_accepted (haccepted _ List.mem_cons_self) rfl rfl
          (hdraft.typed hrelation)
        have hslug : f.name = f.field.slug := hname
        rw [if_pos hchanged, List.foldlM_cons, applyEdit, heffect, Option.map_some]
        dsimp only
        rw [hslug, applyToFields_replace hdone hrest, toMetadataConfig_map, Option.getD_some,
          detail.typed f hf hrelation]
        rfl
      · rename_i hchanged
        rw [not_or, not_or, not_ne_iff, not_ne_iff, not_ne_iff] at hchanged
        obtain ⟨htype, hrequired, hconfig⟩ := hchanged
        rw [if_neg (by simp [htype, hrequired, hconfig]),
          hsame htype.symm hrequired.symm hconfig.symm]
        rfl

theorem existingField_slug {g : Field} (hg : g ∈ existingField nt f d) :
    g.slug = f.slug ∧ d.removed = false := by
  unfold existingField at hg
  split at hg
  · cases hg
  · rename_i hkept
    rw [List.mem_singleton.mp hg]
    exact ⟨rfl, Bool.eq_false_iff.mpr hkept⟩

/-- By induction on the drafts: the fields already gone through are `done`. -/
theorem applyEdits_existings {fs : List FieldDefinition} {ds : List ExistingFieldDraft}
    (hdrafts : List.Forall₂ (DraftOf nt) fs ds) (hfs : ∀ f ∈ fs, f ∈ detail.fields)
    (hnodup : (fs.map FieldDefinition.slug).Nodup) (done : List Field)
    (hdone : ∀ g ∈ done, ∀ f ∈ fs, g.slug ≠ f.slug)
    (haccepted : ∀ e ∈ (fs.zip ds).flatMap (fun p => existingEdits nt p.1 p.2),
      ∃ column, sanitizeUserIdentifier e.name = .ok column) :
    ((fs.zip ds).flatMap fun p => existingEdits nt p.1 p.2).foldlM applyEdit
        (done ++ fs.map FieldDefinition.field) =
      some (done ++ (fs.zip ds).flatMap fun p => existingField nt p.1 p.2) := by
  induction hdrafts generalizing done with
  | nil => rfl
  | @cons f d fs ds hdraft _ ih =>
    rw [List.map_cons, List.nodup_cons] at hnodup
    rw [List.zip_cons_cons, List.flatMap_cons] at haccepted
    have hrest : ∀ g ∈ fs.map FieldDefinition.field, g.slug ≠ f.slug := by
      intro g hg hslug
      obtain ⟨f', hf', rfl⟩ := List.mem_map.mp hg
      exact hnodup.1 (hslug ▸ List.mem_map_of_mem hf')
    have hone := applyEdits_existing (hfs f List.mem_cons_self) hdraft
      (fun g hg => hdone g hg f List.mem_cons_self) hrest
      fun e he => haccepted e (List.mem_append_left _ he)
    have hdone' : ∀ g ∈ done ++ existingField nt f d, ∀ f' ∈ fs, g.slug ≠ f'.slug := by
      intro g hg f' hf'
      rcases List.mem_append.mp hg with hg | hg
      · exact hdone g hg f' (List.mem_cons_of_mem f hf')
      · rw [(existingField_slug hg).1]
        exact fun hslug => hnodup.1 (hslug ▸ List.mem_map_of_mem hf')
    have hothers := ih (fun g hg => hfs g (List.mem_cons_of_mem f hg)) hnodup.2
      (done ++ existingField nt f d) hdone' fun e he => haccepted e (List.mem_append_right _ he)
    rw [List.zip_cons_cons, List.flatMap_cons, List.flatMap_cons, List.foldlM_append, List.map_cons,
      hone, ← List.append_assoc]
    exact hothers

theorem editEffect_addEdit {d : NewFieldDraft} {config : Option (List (String × Json))}
    (haccepted : ∃ column, sanitizeUserIdentifier (trim d.name) = .ok column)
    (hrelation : d.dataType = .RELATION → d.relatedTableId ≠ none) :
    editEffect (addEdit d config) = some (.upsertField (trim d.name) (trim d.name) d.dataType
      d.required (config.map Json.obj)
      (if d.dataType = .RELATION then d.relatedTableId else none)) := by
  obtain ⟨column, hcolumn⟩ := haccepted
  obtain rfl := sanitizeUserIdentifier_ok hcolumn
  unfold editEffect addEdit
  dsimp only
  rw [hcolumn]
  cases htype : d.dataType with
  | RELATION =>
    obtain ⟨id, hid⟩ := Option.ne_none_iff_exists'.mp (hrelation htype)
    rw [hid]
    rfl
  | _ => rfl

theorem applyEdits_news (ds : List NewFieldDraft) (fields : List Field) (allNames : List String)
    (hnames : ∀ g ∈ fields, text.toLowerCase g.slug ∈ allNames) (hok : NewOk text allNames ds)
    (haccepted : ∀ d ∈ ds, ∃ column, sanitizeUserIdentifier (trim d.name) = .ok column) :
    (ds.map fun d => addEdit d (draftConfig nt d.config)).foldlM applyEdit fields =
      some (fields ++ ds.map (addedField nt)) := by
  induction ds generalizing fields allNames with
  | nil => exact congrArg some (List.append_nil fields).symm
  | cons d ds ih =>
    obtain ⟨hfree, hrelation, hrest⟩ := hok
    have hslugs : ∀ g ∈ fields, g.slug ≠ trim d.name :=
      fun g hg hslug => hfree (hslug ▸ hnames g hg)
    have heffect := @editEffect_addEdit d (draftConfig nt d.config)
      (haccepted d List.mem_cons_self) hrelation
    have hnames' : ∀ g ∈ fields ++ [addedField nt d],
        text.toLowerCase g.slug ∈ allNames ++ [text.toLowerCase (trim d.name)] := by
      intro g hg
      rcases List.mem_append.mp hg with hg | hg
      · exact List.mem_append_left _ (hnames g hg)
      · rw [List.mem_singleton.mp hg]
        exact List.mem_append_right _ List.mem_cons_self
    have hone : applyEdit fields (addEdit d (draftConfig nt d.config)) =
        some (fields ++ [addedField nt d]) := by
      rw [applyEdit, heffect, Option.map_some, applyToFields_append hslugs, toMetadataConfig_map]
      rfl
    have hothers := ih (fields ++ [addedField nt d]) _ hnames' hrest
      fun d' hd' => haccepted d' (List.mem_cons_of_mem d hd')
    rw [List.append_assoc] at hothers
    rw [List.map_cons, List.foldlM_cons, hone]
    exact hothers

theorem keptNames_mem {fs : List FieldDefinition} {ds : List ExistingFieldDraft}
    (hfs : ∀ f ∈ fs, f.name = f.slug) {g : Field}
    (hg : g ∈ (fs.zip ds).flatMap fun p => existingField nt p.1 p.2) :
    text.toLowerCase g.slug ∈ (fs.zip ds).flatMap fun p => keptNames text p.1 p.2 := by
  obtain ⟨p, hp, hg⟩ := List.mem_flatMap.mp hg
  obtain ⟨hslug, hkept⟩ := existingField_slug hg
  refine List.mem_flatMap.mpr ⟨p, hp, ?_⟩
  rw [keptNames, hkept, hslug, hfs p.1 (List.of_mem_zip hp).1]
  exact List.mem_cons_self

theorem editor_fields (hdrafts : List.Forall₂ (DraftOf nt) detail.fields s.existingFields) :
    s.fields nt detail.fields =
      (detail.fields.zip s.existingFields).flatMap (fun p => existingField nt p.1 p.2) ++
        s.newFields.map (addedField nt) := by
  rw [Editor.fields]
  congr 1
  have hpairs {fs : List FieldDefinition} {ds : List ExistingFieldDraft}
      (h : List.Forall₂ (DraftOf nt) fs ds) (hfs : ∀ f ∈ fs, f ∈ detail.fields) :
      (ds.flatMap fun d => ((detail.fields.find? fun f => f.id == d.id).map
        fun f => existingField nt f d).getD []) =
        (fs.zip ds).flatMap fun p => existingField nt p.1 p.2 := by
    induction h with
    | nil => rfl
    | @cons f d fs ds hdraft _ ih =>
      rw [List.flatMap_cons, List.zip_cons_cons, List.flatMap_cons,
        find_original (hfs f List.mem_cons_self) hdraft.id,
        ih fun g hg => hfs g (List.mem_cons_of_mem f hg)]
      rfl
  exact hpairs hdrafts fun f hf => hf

theorem buildRequest_some (hdrafts : List.Forall₂ (DraftOf nt) detail.fields s.existingFields)
    (h : buildRequest nt text detail.fields s = some edits) :
    edits = (detail.fields.zip s.existingFields).flatMap (fun p => existingEdits nt p.1 p.2) ++
        s.newFields.map (fun d => addEdit d (draftConfig nt d.config)) ∧
      NewOk text ((detail.fields.zip s.existingFields).flatMap fun p => keptNames text p.1 p.2)
        s.newFields := by
  obtain ⟨hedits, hnames, -⟩ := @collectExistings_spec nt text detail detail.fields
    s.existingFields hdrafts (fun f hf => hf) ⟨[], [], []⟩
  obtain ⟨hedits', herrors⟩ := @collectNews_spec nt text s.newFields
    (s.existingFields.foldl (collectExisting nt text detail.fields) ⟨[], [], []⟩)
  rw [hedits] at hedits'
  rw [hnames] at herrors
  unfold buildRequest at h
  obtain ⟨hempty, h⟩ := Option.ite_none_right_eq_some.mp h
  have hnone : (s.newFields.foldl (collectNew nt text) (s.existingFields.foldl
      (collectExisting nt text detail.fields) ⟨[], [], []⟩)).errors = [] := by
    have hall := List.isEmpty_iff.mp hempty
    split at hall
    · exact (List.append_eq_nil_iff.mp hall).1
    · exact hall
  exact ⟨(Option.some.inj h).symm.trans hedits', (herrors hnone).2⟩

theorem existingEdits_name {e : FieldEditDto} (he : e ∈ existingEdits nt f d) :
    e.name = f.name := by
  unfold existingEdits modifyEdit at he
  split_ifs at he <;> simp_all [removeEdit]

theorem existingEdits_create (f : FieldDefinition) :
    existingEdits nt f (createExistingDraft nt f) = [] := by
  have hsame : ¬(f.dataType ≠ f.dataType ∨ f.required ≠ f.required ∨
      fieldConfig nt f.config ≠ fieldConfig nt f.config) := by
    simp only [ne_eq, not_true_eq_false, or_self, not_false_eq_true]
  unfold existingEdits
  rw [if_neg (by simp [createExistingDraft])]
  split
  · rfl
  · exact if_neg hsame

theorem newOk_mem {allNames : List String} {ds : List NewFieldDraft} (h : NewOk text allNames ds)
    {d : NewFieldDraft} (hd : d ∈ ds) : text.toLowerCase (trim d.name) ∉ allNames := by
  induction ds generalizing allNames with
  | nil => cases hd
  | cons d' ds ih =>
    rcases List.mem_cons.mp hd with rfl | hd
    · exact h.1
    · exact fun hmem => ih h.2.2 hd (List.mem_append_left _ hmem)

theorem draft_of_field (hdrafts : List.Forall₂ (DraftOf nt) detail.fields s.existingFields)
    (hf : f ∈ detail.fields) (hd : d ∈ s.existingFields) (hid : d.id = f.id) :
    (f, d) ∈ detail.fields.zip s.existingFields ∧
      ∀ d', (f, d') ∈ detail.fields.zip s.existingFields → d' = d := by
  have hids := forall₂_map_eq hdrafts fun _ _ hdraft => hdraft.id.symm
  have hdraftIds : (s.existingFields.map ExistingFieldDraft.id).Nodup := hids ▸ detail.ids
  obtain ⟨hlength, hzip⟩ := List.forall₂_iff_zip.mp hdrafts
  constructor
  · obtain ⟨i, hi, rfl⟩ := List.mem_iff_getElem.mp hd
    have hi' : i < (detail.fields.zip s.existingFields).length := by
      rw [List.length_zip]
      omega
    have hpair : (detail.fields[i], s.existingFields[i]) ∈ detail.fields.zip s.existingFields := by
      have hget : (detail.fields.zip s.existingFields)[i] =
          (detail.fields[i], s.existingFields[i]) := List.getElem_zip
      exact hget ▸ List.getElem_mem hi'
    have hsame : detail.fields[i] = f :=
      List.inj_on_of_nodup_map detail.ids (List.getElem_mem _) hf ((hzip hpair).id.symm.trans hid)
    exact hsame ▸ hpair
  · intro d' hd'
    exact List.inj_on_of_nodup_map hdraftIds (List.of_mem_zip hd').2 hd
      ((hzip hd').id.trans hid.symm)

/-- The edits of a request, applied in order, leave the fields of the drafts. -/
theorem request_fields (h : Reach Editor.step (fun _ _ => True) (.ofTable detail) s)
    (hrequest : buildRequest nt text detail.fields s = some edits)
    (haccepted : ∀ e ∈ edits, ∃ column, sanitizeUserIdentifier e.name = .ok column) :
    edits.foldlM applyEdit (detail.fields.map FieldDefinition.field) =
      some (s.fields nt detail.fields) := by
  have hdrafts := drafts_reach h
  obtain ⟨rfl, hok⟩ := buildRequest_some hdrafts hrequest
  have hold := applyEdits_existings hdrafts (fun f hf => hf) detail.slugs []
    (fun g hg => absurd hg List.not_mem_nil) fun e he => haccepted e (List.mem_append_left _ he)
  have hnames : ∀ d ∈ s.newFields, ∃ column, sanitizeUserIdentifier (trim d.name) = .ok column :=
    fun d hd => haccepted (addEdit d (draftConfig nt d.config))
      (List.mem_append_right _ (List.mem_map_of_mem hd))
  have hnew := @applyEdits_news nt text s.newFields _ _
    (fun g hg => @keptNames_mem nt text _ _ detail.named g hg) hok hnames
  rw [List.nil_append, List.nil_append] at hold
  rw [List.foldlM_append, hold, editor_fields hdrafts]
  exact hnew

theorem request_unchanged (h : Reach Editor.step (fun _ _ => True) (.ofTable detail) s)
    (hrequest : buildRequest nt text detail.fields s = some edits) (hf : f ∈ detail.fields)
    (hcreated : createExistingDraft nt f ∈ s.existingFields) : ∀ e ∈ edits, e.name ≠ f.name := by
  have hdrafts := drafts_reach h
  obtain ⟨rfl, hok⟩ := buildRequest_some hdrafts hrequest
  intro e he hname
  obtain ⟨hpair, honly⟩ := draft_of_field hdrafts hf hcreated rfl
  rcases List.mem_append.mp he with he | he
  · obtain ⟨⟨f', d⟩, hp, he⟩ := List.mem_flatMap.mp he
    have hf' := (List.of_mem_zip hp).1
    have hslug : f'.slug = f.slug := by
      rw [← detail.named f' hf', ← detail.named f hf, ← hname, existingEdits_name he]
    obtain rfl := List.inj_on_of_nodup_map detail.slugs hf' hf hslug
    rw [honly d hp, existingEdits_create] at he
    cases he
  · obtain ⟨d, hd, rfl⟩ := List.mem_map.mp he
    have htrim : trim d.name = f.name := hname
    have hkept : text.toLowerCase f.name ∈ keptNames text f (createExistingDraft nt f) := by
      rw [keptNames, if_neg (by simp [createExistingDraft])]
      exact List.mem_cons_self
    have hfree := newOk_mem hok hd
    rw [htrim] at hfree
    exact hfree (List.mem_flatMap.mpr ⟨_, hpair, hkept⟩)

end Applying

/-! ### The request on the server -/

section Served

variable {db db' : TenantSchema} {tableId : Uuid}

/-- The detail of a table whose rows have the keys of `rows`. -/
def TableDetail.ofRows (nt : NumberText) (rows : List (String × MetaField))
    (hids : (rows.map Prod.fst).Nodup) (hrows : (rows.map Prod.snd).Perm (db.fieldsOf tableId))
    (hkeyed : db.Keyed) (hdeclared : ∀ f ∈ db.metaFields, f.Declared)
    (hstable : ∀ f ∈ db.metaFields, ∀ members, f.config = some (.obj members) →
      Stable nt (.obj members)) : TableDetail nt :=
  have hmem (f : FieldDefinition)
      (hf : f ∈ rows.map fun row => mapFieldDefinition row.1 row.2) :
      ∃ id, ∃ row ∈ db.metaFields, f = mapFieldDefinition id row := by
    obtain ⟨row, hrow, rfl⟩ := List.mem_map.mp hf
    exact ⟨row.1, row.2,
      (List.mem_filter.mp (hrows.mem_iff.mp (List.mem_map_of_mem hrow))).1, rfl⟩
  { fields := rows.map fun row => mapFieldDefinition row.1 row.2
    ids := by
      rw [List.map_map]
      exact hids
    slugs := by
      have hperm := hrows.map MetaField.slug
      rw [List.map_map] at hperm ⊢
      exact hperm.nodup_iff.mpr (hkeyed tableId)
    named := by
      intro f hf
      obtain ⟨id, row, hrow, rfl⟩ := hmem f hf
      exact (hdeclared row hrow).1
    typed := by
      intro f hf
      obtain ⟨id, row, hrow, rfl⟩ := hmem f hf
      exact (hdeclared row hrow).2
    config := by
      intro f hf members hconfig
      obtain ⟨id, row, hrow, rfl⟩ := hmem f hf
      refine hstable row hrow members ?_
      unfold mapFieldDefinition toMetadataConfig at hconfig
      dsimp only at hconfig
      split at hconfig
      · rename_i hstored
        rw [hstored, Option.some.inj hconfig]
      · cases hconfig }

theorem applyToFields_perm {fields fields' : List Field} (h : fields.Perm fields')
    (effect : FieldMetadataEffect) :
    (applyToFields fields effect).Perm (applyToFields fields' effect) := by
  cases effect with
  | removeField slug => exact h.filter _
  | upsertField name slug dataType required config relationTarget =>
    rw [applyToFields, applyToFields, h.any_eq]
    split
    · exact h.map _
    · exact h.append_right _

theorem applyEdits_effects {edits : List FieldEditDto}
    {built : List (List FieldEditStep × FieldMetadataEffect)}
    (h : List.Forall₂ (fun edit b => buildFieldEditSteps db tableId edit = .ok b) edits built)
    (fields : List Field) :
    edits.foldlM applyEdit fields = some ((built.map Prod.snd).foldl applyToFields fields) := by
  induction h generalizing fields with
  | nil => rfl
  | cons hbuilt _ ih =>
    rw [List.foldlM_cons, applyEdit, effect_of_buildFieldEditSteps hbuilt, List.map_cons,
      List.foldl_cons]
    exact ih _

theorem accepted_names {edits : List FieldEditDto}
    {built : List (List FieldEditStep × FieldMetadataEffect)}
    (h : List.Forall₂ (fun edit b => buildFieldEditSteps db tableId edit = .ok b) edits built) :
    ∀ e ∈ edits, ∃ column, sanitizeUserIdentifier e.name = .ok column := by
  induction h with
  | nil => exact fun e he => absurd he List.not_mem_nil
  | cons hbuilt _ ih =>
    intro e he
    rcases List.mem_cons.mp he with rfl | he
    · obtain ⟨column, hcolumn, -⟩ := except_bind_ok.mp hbuilt
      exact ⟨column, hcolumn⟩
    · exact ih e he

theorem applyEffects_perm (effects : List FieldMetadataEffect) {fields fields' : List Field}
    (h : fields.Perm fields') :
    (effects.foldl applyToFields fields).Perm (effects.foldl applyToFields fields') := by
  induction effects generalizing fields fields' with
  | nil => exact h
  | cons effect effects ih => exact ih (applyToFields_perm h effect)

variable {nt : NumberText} {text : JsText} {detail : TableDetail nt} {s : Editor}
  {dto : UpdateFieldDto} {jobId : Uuid} {d : FieldEditJobData}

/-- When the job is done, the table's fields are those of the drafts. -/
theorem job_leaves_drafts (h : Reach Editor.step (fun _ _ => True) (.ofTable detail) s)
    (hrequest : buildRequest nt text detail.fields s = some dto.edits)
    (hserved : (detail.fields.map FieldDefinition.field).Perm
      ((db.fieldsOf d.tableId).map MetaField.field))
    (haccepted : AcceptedEdit db jobId tableId dto d)
    (heffects : d.metadataEffects.foldlM (applyEffect d.tableId) db = .ok db') :
    ((db'.fieldsOf d.tableId).map MetaField.field).Perm (s.fields nt detail.fields) := by
  obtain ⟨built, hbuilt, -, hd⟩ := haccepted.built
  have happlied := request_fields h hrequest (accepted_names hbuilt)
  rw [applyEdits_effects hbuilt, ← hd] at happlied
  rw [fieldsOf_applyEffects heffects, ← Option.some.inj happlied]
  exact applyEffects_perm d.metadataEffects hserved.symm

end Served

/-! ### The request of an editor -/

/-- Applying the edits of a request in order leaves the fields of the drafts, and a field whose
draft is as it was created has no edit. -/
theorem buildRequest_correct {nt : NumberText} {text : JsText} {detail : TableDetail nt}
    {s : Editor} {edits : List FieldEditDto}
    (h : Reach Editor.step (fun _ _ => True) (.ofTable detail) s)
    (hrequest : buildRequest nt text detail.fields s = some edits)
    (haccepted : ∀ e ∈ edits, ∃ column, sanitizeUserIdentifier e.name = .ok column) :
    edits.foldlM applyEdit (detail.fields.map FieldDefinition.field) =
      some (s.fields nt detail.fields) ∧
    ∀ f ∈ detail.fields, createExistingDraft nt f ∈ s.existingFields →
      ∀ e ∈ edits, e.name ≠ f.name :=
  ⟨request_fields h hrequest haccepted, fun _ hf hcreated =>
    request_unchanged h hrequest hf hcreated⟩

def wholeNumbers : NumberText where
  write q := (toString q.num).toList
  read cs := (String.ofList cs).toInt?.map fun n => .finite n

def asciiLowerCase : JsText := ⟨fun s => String.ofList (s.toList.map Char.toLower)⟩

def codeField : FieldDefinition where
  id := "f1"
  name := "code"
  slug := "code"
  dataType := .STRING
  required := true
  config := some [("enum", .arr [.str "a", .str "b"])]
  relationTargetTableId := none

def amountField : FieldDefinition where
  id := "f2"
  name := "amount"
  slug := "amount"
  dataType := .NUMBER
  required := false
  config := none
  relationTargetTableId := none

def codeAndAmount : TableDetail wholeNumbers where
  fields := [codeField, amountField]
  ids := by decide
  slugs := by decide
  named := by simp [codeField, amountField]
  typed := by simp [codeField, amountField]
  config := by
    intro f hf members hconfig
    rcases List.mem_pair.mp hf with rfl | rfl
    · obtain rfl := Option.some.inj hconfig
      refine .obj _ (List.nodup_singleton _) fun kv hkv => ?_
      rw [List.mem_singleton.mp hkv]
      refine .arr _ fun x hx => ?_
      rcases List.mem_pair.mp hx with rfl | rfl <;> exact .str _
    · cases hconfig

/-- The events of `code` removed and added again as a number. -/
def readdEvents : List EditorEvent :=
  [.removeExisting "f1", .addNew, .changeNew 1 (.name " code "), .changeNew 1 (.dataType .NUMBER)]

def readdEdits : List FieldEditDto :=
  [removeEdit "code", { operation := .add, name := "code", dataType := some .NUMBER,
                        required := some false, config := none, relatedTableId := none }]

/-- A field is removed and added again under its name; the other has no edit. -/
theorem buildRequest_correct_readded : ∃ s,
    Reach Editor.step (fun _ _ => True) (.ofTable codeAndAmount) s ∧
    readdEdits.foldlM applyEdit (codeAndAmount.fields.map FieldDefinition.field) =
      some (s.fields wholeNumbers codeAndAmount.fields) ∧
    ∀ e ∈ readdEdits, e.name ≠ "amount" := by
  have hrun : ∃ s, runAll Editor.step (.ofTable codeAndAmount) readdEvents = some s ∧
      buildRequest wholeNumbers asciiLowerCase codeAndAmount.fields s = some readdEdits ∧
      createExistingDraft wholeNumbers amountField ∈ s.existingFields :=
    ⟨_, rfl, rfl, List.mem_cons_of_mem _ List.mem_cons_self⟩
  obtain ⟨s, hs, hrequest, hkept⟩ := hrun
  have hreach : Reach Editor.step (fun _ _ => True) (.ofTable codeAndAmount) s :=
    .of_runAll (.of_labels (fun _ _ _ => trivial) _) hs
  have hnames : ∀ e ∈ readdEdits, ∃ column, sanitizeUserIdentifier e.name = .ok column := by
    intro e he
    rcases List.mem_pair.mp he with rfl | rfl <;> exact ⟨"code", by decide⟩
  obtain ⟨happlied, hunchanged⟩ := buildRequest_correct hreach hrequest hnames
  have hamount : amountField ∈ codeAndAmount.fields := List.mem_cons_of_mem _ List.mem_cons_self
  exact ⟨s, hreach, happlied, hunchanged amountField hamount hkept⟩

end Flexi.Client
