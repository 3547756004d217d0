import Flexi.Client.FieldEditor
import Flexi.Common.DateText
import Flexi.DynamicTables.RowListing
import Flexi.DynamicTables.Storage

/-!
# The row form (DynamicRowForm.tsx)

What the form shows for a stored row, what it sends when it is submitted untouched, and when
that is the row.
-/

namespace Flexi.Client
open Flexi.Library Flexi.JsonText Flexi.DateText Flexi.DynamicTables

/-! ### What the row API returns -/

/-- The value of a field in a stored row. A relation is the key of the row it points at; a
date-time is in milliseconds. -/
inductive StoredValue where
  | null
  | text (s : String)
  | number (d : ℚ)
  | boolean (b : Bool)
  | date (day : ℤ)
  | dateTime (ms : ℚ)
  | json (v : Json)
  | relation (id : ℤ)

/-- The time zone of the server, and the text of a `numeric`. -/
structure Server where
  zone : Zone
  numericText : ℚ → String

/-- A `Date` in a response; an invalid one is `null`. -/
def dateJson (t : ℤ) : Json :=
  match timeClip t with
  | some t => .str (toISOString t)
  | none => .null

section Returned

variable (server : Server)

/-- The midnight that node-postgres makes of a day. -/
def Server.midnight (day : ℤ) : ℤ := server.zone.utc (day * MS_PER_DAY)

/-- The value in a response; of the related row only its key is of use. -/
def StoredValue.returned : StoredValue → Json
  | .null => .null
  | .text s => .str s
  | .number d => .str (server.numericText d)
  | .boolean b => .bool b
  | .date day => dateJson (server.midnight day)
  | .dateTime ms => dateJson ⌊ms⌋
  | .json v => v
  | .relation id => .obj [("id", .num (.finite id))]

/-- The values that the column of a data type holds, with what the runtime does to their numbers:
a number that is printed is read back. -/
inductive StoredValue.OfType (nt : NumberText) : FieldDataType → StoredValue → Prop
  | null (type : FieldDataType) : OfType nt type .null
  | text (type : FieldDataType) (s : String)
      (h : type ∈ [.STRING, .TEXT, .EMAIL, .URL, .SELECT]) : OfType nt type (.text s)
  | number (d : ℚ) (nonempty : server.numericText d ≠ "")
      (read : nt.read (server.numericText d).toList = some (.ofDecimal d)) :
      OfType nt .NUMBER (.number d)
  | boolean (b : Bool) : OfType nt .BOOLEAN (.boolean b)
  | date (day : ℤ) : OfType nt .DATE (.date day)
  | dateTime (ms : ℚ) : OfType nt .DATETIME (.dateTime ms)
  | json (v : Json) (stable : Stable nt v) : OfType nt .JSON (.json v)
  | relation (id : ℤ) (read : nt.Reads id) : OfType nt .RELATION (.relation id)

end Returned

/-- A row of a table, by the slugs of its fields. Its dates are read and written in zones
with offsets of whole minutes. -/
structure StoredRow (nt : NumberText) (server : Server) (fields : List FieldDefinition) where
  value : String → StoredValue
  typed : ∀ f ∈ fields, (value f.slug).OfType server nt f.dataType

/-- The row in a response; columns that no field has are left out. -/
def StoredRow.returned {nt : NumberText} {server : Server} {fields : List FieldDefinition}
    (row : StoredRow nt server fields) : List (String × Json) :=
  fields.map fun f => (f.slug, (row.value f.slug).returned server)

/-! ### The rows of a listing -/

section Listed

variable (server : Server)

def cellJson : Cell → Json
  | .null => .null
  | .int i => .num (.finite i)
  | .num d => .str (server.numericText d)
  | .str s => .str s
  | .bool b => .bool b
  | .instant ms => dateJson ⌊ms⌋
  | .json v => v

/-- What a listed row has under a slug. -/
def listedValue (r : ListedRow) (slug : String) : Json :=
  match r.relations.lookup slug with
  | some none => .null
  | some (some target) => .obj [("id", cellJson server (target "id"))]
  | none => cellJson server (r.row slug)

inductive StoredValue.InCell : StoredValue → Cell → Prop
  | null : InCell .null .null
  | text (s : String) : InCell (.text s) (.str s)
  | number (d : ℚ) : InCell (.number d) (.num d)
  | boolean (b : Bool) : InCell (.boolean b) (.bool b)
  | date (day : ℤ) : InCell (.date day) (.instant (server.midnight day))
  | dateTime (ms : ℚ) : InCell (.dateTime ms) (.instant ms)
  | json (v : Json) : InCell (.json v) (.json v)

/-- The value of a field in a listed row. -/
inductive StoredValue.Listed (r : ListedRow) (slug : String) : StoredValue → Prop
  | unset (h : r.relations.lookup slug = some none) : Listed r slug .null
  | related (target : Row) (id : ℤ) (h : r.relations.lookup slug = some (some target))
      (hid : target "id" = .int id) : Listed r slug (.relation id)
  | column (v : StoredValue) (h : r.relations.lookup slug = none)
      (hcell : v.InCell server (r.row slug)) : Listed r slug v

theorem listedValue_returned {r : ListedRow} {slug : String} {v : StoredValue}
    (h : v.Listed server r slug) : listedValue server r slug = v.returned server := by
  cases h with
  | unset h =>
    rw [listedValue, h]
    rfl
  | related target id h hid =>
    rw [listedValue, h]
    dsimp only
    rw [hid]
    rfl
  | column v h hcell =>
    rw [listedValue, h]
    dsimp only
    generalize r.row slug = cell at hcell
    cases hcell with
    | date day =>
      rw [cellJson, Int.floor_intCast]
      rfl
    | _ => rfl

theorem lookup_map_self {α : Type} {slugs : List String} {slug : String} {value : String → α}
    (h : slug ∈ slugs) : (slugs.map fun s => (s, value s)).lookup slug = some (value slug) := by
  induction slugs with
  | nil => cases h
  | cons s slugs ih =>
    rw [List.map_cons, List.lookup_cons]
    by_cases hs : slug = s
    · rw [beq_iff_eq.mpr hs, hs]
    · rw [beq_eq_false_iff_ne.mpr hs]
      exact ih ((List.mem_cons.mp h).resolve_left hs)

theorem shaped_relation {own : FieldsObject} {g : AggregatedRow} {rule : FieldValidationRule}
    {key : String} (hrule : (key, rule) ∈ own.own) (hrelation : rule.dataType = .RELATION) :
    (shapeRelationColumns own g).relations.lookup rule.slug =
      some ((g.related.lookup rule.slug).bind List.head?) := by
  refine lookup_map_self (List.mem_map.mpr ⟨(key, rule), List.mem_filter.mpr ⟨hrule, ?_⟩, rfl⟩)
  exact decide_eq_true hrelation

end Listed

/-! ### The values of the form -/

/-- The runtime of the form: `Number` and the text of a number, and the local time. -/
structure Browser where
  nt : NumberText
  zone : Zone

inductive FieldInput where
  | text (s : String)
  | flag (b : Bool)
  deriving DecidableEq

structure FormError where
  key : String
  bound : Option JsNumber

section Form

variable (browser : Browser)

mutual

/-- `String(value)` -/
def jsText : Json → String
  | .null => "null"
  | .bool true => "true"
  | .bool false => "false"
  | .num (.finite q) => String.ofList (browser.nt.write q)
  | .num (.infinite negative) => if negative then "-Infinity" else "Infinity"
  | .str s => s
  | .arr xs => ",".intercalate (jsTexts xs)
  | .obj _ => "[object Object]"

/-- The items of an array's text. -/
def jsTexts : List Json → List String
  | [] => []
  | .null :: xs => "" :: jsTexts xs
  | x :: xs => jsText x :: jsTexts xs

end

/-- The text of a value, none for `null` and `undefined`. -/
def presentText (value : Option Json) : String :=
  match value with
  | none | some .null => ""
  | some v => jsText browser v

/-- `value.slice(0, n)` on the texts of dates, which are ASCII. -/
def sliceText (n : ℕ) (s : String) : String := String.ofList (s.toList.take n)

/-- What an input shows for a date-time; `none` stands for the throw of `toISOString`. -/
def dateTimeInput (s : String) : Option String :=
  match parse browser.zone s.toList with
  | some t => (timeClip (browser.zone.localTime t)).map fun l => sliceText 16 (toISOString l)
  | none => some s

/-- One entry of `initialValues`. -/
def initialValue (dataType : FieldDataType) (value : Option Json) : Option FieldInput :=
  match dataType, value with
  | .BOOLEAN, some (.bool b) => some (.flag b)
  | .BOOLEAN, _ => some (.flag false)
  | .JSON, none | .JSON, some .null => some (.text "")
  | .JSON, some v => some (.text (stringify browser.nt 2 v))
  | .DATE, some (.str s) => some (.text (sliceText 10 s))
  | .DATETIME, some (.str s) => (dateTimeInput browser s).map .text
  | .RELATION, some (.obj members) => some (.text (presentText browser (members.lookup "id")))
  | _, _ => some (.text (presentText browser value))

def initialValues (fields : List FieldDefinition) (row : List (String × Json)) :
    Option (List (String × FieldInput)) :=
  fields.mapM fun f =>
    (initialValue browser f.dataType (row.lookup f.slug)).map fun value => (f.slug, value)

/-! ### The payload -/

def configValue (config : Option (List (String × Json))) (key : String) : Option Json :=
  config.bind fun members => members.lookup key

/-- `config?.enum ?? config?.options`, when it is an array. -/
def stringOptions (config : Option (List (String × Json))) : List String :=
  let source := match configValue config "enum" with
    | none | some .null => configValue config "options"
    | some v => some v
  match source with
  | some (.arr xs) => xs.filterMap fun x => match x with
    | .str s => some s
    | _ => none
  | _ => []

/-- `configNumber`, which gives finite numbers only. -/
def configNumber (config : Option (List (String × Json))) (key : String) : Option ℚ :=
  match configValue config key with
  | some (.num (.finite q)) => some q
  | _ => none

def formError (name : String) (bound : Option ℚ) : FormError where
  key := "dynamicTables.rows.form.errors." ++ name
  bound := bound.map .finite

def numberOutcome (config : Option (List (String × Json))) (text : String) :
    Except FormError Json :=
  match browser.nt.read text.toList with
  | some (.finite q) =>
    if (configNumber config "min").any fun min => q < min then
      .error (formError "min" (configNumber config "min"))
    else if (configNumber config "max").any fun max => max < q then
      .error (formError "max" (configNumber config "max"))
    else .ok (.num (.finite q))
  | _ => .error (formError "number" none)

def jsonOutcome (text : String) : Except FormError Json :=
  match JsonText.parse browser.nt text with
  | some (.arr xs) => .ok (.arr xs)
  | some (.obj members) => .ok (.obj members)
  | _ => .error (formError "json" none)

def relationOutcome (text : String) : Except FormError Json :=
  match browser.nt.read text.toList with
  | some n => if n.isInteger then .ok (.num n) else .error (formError "relation" none)
  | none => .error (formError "relation" none)

def dateTimeOutcome (text : String) : Except FormError Json :=
  match DateText.parse browser.zone text.toList with
  | some t => .ok (.str (toISOString t))
  | none => .error (formError "dateTime" none)

def optionOutcome (config : Option (List (String × Json))) (text : String) :
    Except FormError Json :=
  let options := stringOptions config
  if options.isEmpty || options.contains text then .ok (.str text)
  else .error (formError "enum" none)

/-- `String(value)` of an input -/
def FieldInput.toText : FieldInput → String
  | .text s => s
  | .flag true => "true"
  | .flag false => "false"

/-- What the text of an input becomes by the field's data type. -/
def textOutcome (f : FieldDefinition) (text : String) : Except FormError Json :=
  match f.dataType with
  | .NUMBER => numberOutcome browser f.config text
  | .JSON => jsonOutcome browser text
  | .RELATION => relationOutcome browser text
  | .DATETIME => dateTimeOutcome browser text
  | .DATE =>
    if (DateText.parse browser.zone text.toList).isNone then .error (formError "date" none)
    else optionOutcome f.config text
  | _ => optionOutcome f.config text

/-- What one field adds to the payload, or its error. -/
def fieldOutcome (f : FieldDefinition) (value : Option FieldInput) : Except FormError Json :=
  let isEmpty := value = none ∨ value = some (.text "")
  if f.required ∧ isEmpty then .error (formError "required" none)
  else if f.dataType = .BOOLEAN then .ok (.bool (value = some (.flag true)))
  else if isEmpty then .ok .null
  else textOutcome browser f ((value.map FieldInput.toText).getD "undefined")

/-- A key that is there keeps its place. -/
def setOwn {α : Type} (key : String) (value : α) : List (String × α) → List (String × α)
  | [] => [(key, value)]
  | kv :: own => if kv.1 = key then (key, value) :: own else kv :: setOwn key value own

/-- `object[key] = value` on a plain object, whose key `__proto__` is none of its own. -/
def assignKey {α : Type} (own : List (String × α)) (key : String) (value : α) :
    List (String × α) :=
  if key = PROTO then own else setOwn key value own

structure FormResult where
  nextErrors : List (String × FormError)
  payload : List (String × Json)

def collectField (values : List (String × FieldInput)) (c : FormResult) (f : FieldDefinition) :
    FormResult :=
  match fieldOutcome browser f (values.lookup f.slug) with
  | .error e => { c with nextErrors := assignKey c.nextErrors f.slug e }
  | .ok v => { c with payload := assignKey c.payload f.slug v }

/-- `buildPayload`: the errors, or what is sent. -/
def buildPayload (fields : List FieldDefinition) (values : List (String × FieldInput)) :
    Except (List (String × FormError)) (List (String × Json)) :=
  let c := fields.foldl (collectField browser values) ⟨[], []⟩
  if c.nextErrors.isEmpty then .ok c.payload else .error c.nextErrors

end Form

/-! ### An untouched form -/

/-- What is sent for a field is the value that is stored. -/
inductive Same (browser : Browser) : StoredValue → Json → Prop
  | null : Same browser .null .null
  | text (s : String) : Same browser (.text s) (.str s)
  | number (d : ℚ) : Same browser (.number d) (.num (.ofDecimal d))
  | boolean (b : Bool) : Same browser (.boolean b) (.bool b)
  | date (day : ℤ) : Same browser (.date day) (.str (String.ofList (dateText (civilDate day))))
  | dateTime (s : String) (t : ℤ) (h : DateText.parse browser.zone s.toList = some t) :
      Same browser (.dateTime t) (.str s)
  | json (v : Json) : Same browser (.json v) v
  | relation (id : ℤ) : Same browser (.relation id) (.num (.finite id))

section Untouched

variable (browser : Browser) (server : Server)

/-- The form that opens on a row and is submitted as it is. -/
def submitUntouched (fields : List FieldDefinition) (row : List (String × Json)) :
    Option (Except (List (String × FormError)) (List (String × Json))) :=
  (initialValues browser fields row).map (buildPayload browser fields)

/-- The submission is refused for a required empty field, or every field is sent as it is
stored. -/
def EditKeepsRow {fields : List FieldDefinition}
    (row : StoredRow browser.nt server fields) : Prop :=
  ∃ result, submitUntouched browser fields row.returned = some result ∧
    ((∃ errors, result = .error errors ∧ ∃ f ∈ fields, f.required = true ∧
      errors.lookup f.slug = some (formError "required" none)) ∨
    ∃ payload, result = .ok payload ∧ ∀ f ∈ fields, ∃ v,
      payload.lookup f.slug = some v ∧ Same browser (row.value f.slug) v)

def StoredValue.Empty : StoredValue → Prop
  | .null => True
  | .text s => s = ""
  | .date day => timeClip (server.midnight day) = none
  | .dateTime ms => timeClip ⌊ms⌋ = none
  | .json v => v = .null
  | .number _ | .boolean _ | .relation _ => False

/-- The texts that the options of a field admit. -/
def Offered (f : FieldDefinition) (s : String) : Prop :=
  stringOptions f.config = [] ∨ s ∈ stringOptions f.config

/-- The numbers that the bounds of a field admit. -/
def InBounds (f : FieldDefinition) (n : JsNumber) : Prop :=
  ∃ q, n = .finite q ∧ (∀ min, configNumber f.config "min" = some min → min ≤ q) ∧
    ∀ max, configNumber f.config "max" = some max → q ≤ max

/-- The values that the form gives back. -/
def StoredValue.Kept (f : FieldDefinition) : StoredValue → Prop
  | .null => f.dataType ≠ .BOOLEAN
  | .text s => s ≠ "" ∧ Offered f s
  | .number d => InBounds f (.ofDecimal d)
  | .boolean _ => True
  | .date day => FourDigits (server.midnight day) ∧ server.midnight day / MS_PER_DAY = day ∧
    Offered f (String.ofList (dateText (civilDate day)))
  | .dateTime ms => ∃ t : ℤ, ms = t ∧ t % 60000 = 0 ∧ browser.zone.Earliest t ∧
    FourDigits (browser.zone.localTime t)
  | .json v => v = .null ∨ (∃ xs, v = .arr xs) ∨ ∃ members, v = .obj members
  | .relation _ => True

/-- The form opens: the local time of a date-time is one that a `Date` can have. -/
def StoredValue.Opens : StoredValue → Prop
  | .dateTime ms => ∀ t, timeClip ⌊ms⌋ = some t → timeClip (browser.zone.localTime t) ≠ none
  | _ => True

end Untouched

/-! ### One field -/

section Field

variable {browser : Browser} {server : Server} {f : FieldDefinition} {v : StoredValue} {s : String}

theorem textOutcome_ne_required : textOutcome browser f s ≠ .error (formError "required" none) := by
  have hkey {name : String} {bound : Option ℚ}
      (hname : "dynamicTables.rows.form.errors." ++ name ≠
        "dynamicTables.rows.form.errors." ++ "required") :
      (Except.error (formError name bound) : Except FormError Json) ≠
        .error (formError "required" none) :=
    fun h => hname (congrArg FormError.key (Except.error.inj h))
  have hok (w : Json) : (Except.ok w : Except FormError Json) ≠
      .error (formError "required" none) := fun h => by cases h
  have hoptions : optionOutcome f.config s ≠ .error (formError "required" none) := by
    unfold optionOutcome
    dsimp only
    split
    · exact hok _
    · exact hkey (by decide)
  unfold textOutcome
  split
  · unfold numberOutcome
    split
    · split_ifs
      · exact hkey (by decide)
      · exact hkey (by decide)
      · exact hok _
    · exact hkey (by decide)
  · unfold jsonOutcome
    split
    · exact hok _
    · exact hok _
    · exact hkey (by decide)
  · unfold relationOutcome
    split
    · split_ifs
      · exact hok _
      · exact hkey (by decide)
    · exact hkey (by decide)
  · unfold dateTimeOutcome
    split
    · exact hok _
    · exact hkey (by decide)
  · split_ifs
    · exact hkey (by decide)
    · exact hoptions
  · exact hoptions

theorem fieldOutcome_empty (hb : f.dataType ≠ .BOOLEAN) :
    fieldOutcome browser f (some (.text "")) =
      if f.required then .error (formError "required" none) else .ok .null := by
  unfold fieldOutcome
  simp only [or_true, and_true, if_neg hb, if_true]

theorem fieldOutcome_text (hb : f.dataType ≠ .BOOLEAN) (hs : s ≠ "") :
    fieldOutcome browser f (some (.text s)) = textOutcome browser f s := by
  have hempty : ¬(some (FieldInput.text s) = none ∨
      some (FieldInput.text s) = some (.text "")) := by
    simp [hs]
  unfold fieldOutcome
  dsimp only
  rw [if_neg fun h => hempty h.2, if_neg hb, if_neg hempty]
  rfl

/-- What a field does with the input it shows for a stored value. -/
structure FieldSpec (browser : Browser) (server : Server) (f : FieldDefinition) (v : StoredValue)
    (input : FieldInput) : Prop where
  required : fieldOutcome browser f (some input) = .error (formError "required" none) ↔
    f.required = true ∧ f.dataType ≠ .BOOLEAN ∧ v.Empty server
  kept : (∃ w, fieldOutcome browser f (some input) = .ok w ∧ Same browser v w) ↔
    ¬(f.required = true ∧ f.dataType ≠ .BOOLEAN ∧ v.Empty server) ∧ v.Kept browser server f

theorem fieldSpec_empty (hb : f.dataType ≠ .BOOLEAN) (hempty : v.Empty server)
    (hkept : Same browser v .null ↔ v.Kept browser server f) :
    FieldSpec browser server f v (.text "") := by
  constructor
  · rw [fieldOutcome_empty hb]
    split
    · rename_i hrequired
      exact ⟨fun _ => ⟨hrequired, hb, hempty⟩, fun _ => rfl⟩
    · rename_i hrequired
      constructor
      · intro h
        cases h
      · exact fun h => absurd h.1 hrequired
  · rw [fieldOutcome_empty hb, ← hkept]
    split
    · rename_i hrequired
      constructor
      · rintro ⟨w, hw, -⟩
        cases hw
      · exact fun h => absurd ⟨hrequired, hb, hempty⟩ h.1
    · rename_i hrequired
      constructor
      · rintro ⟨w, hw, hsame⟩
        cases hw
        exact ⟨fun h => hrequired h.1, hsame⟩
      · exact fun h => ⟨.null, rfl, h.2⟩

theorem fieldSpec_text (hb : f.dataType ≠ .BOOLEAN) (hs : s ≠ "") (hempty : ¬v.Empty server)
    (hkept : (∃ w, textOutcome browser f s = .ok w ∧ Same browser v w) ↔
      v.Kept browser server f) :
    FieldSpec browser server f v (.text s) := by
  constructor
  · rw [fieldOutcome_text hb hs]
    exact ⟨fun h => absurd h textOutcome_ne_required, fun h => absurd h.2.2 hempty⟩
  · rw [fieldOutcome_text hb hs, hkept]
    exact ⟨fun h => ⟨fun hrequired => hempty hrequired.2.2, h⟩, fun h => h.2⟩

theorem optionOutcome_ok {w : Json} :
    optionOutcome f.config s = .ok w ↔ Offered f s ∧ w = .str s := by
  have hoffered : ((stringOptions f.config).isEmpty || (stringOptions f.config).contains s) =
      true ↔ Offered f s := by
    rw [Offered, Bool.or_eq_true, List.isEmpty_iff, List.contains_iff_mem]
  unfold optionOutcome
  dsimp only
  split
  · rename_i h
    exact ⟨fun hw => ⟨hoffered.mp h, (Except.ok.inj hw).symm⟩, fun hw => congrArg _ hw.2.symm⟩
  · rename_i h
    constructor
    · intro hw
      cases hw
    · exact fun hw => absurd (hoffered.mpr hw.1) h

theorem fieldSpec_flag (hb : f.dataType = .BOOLEAN) {b : Bool}
    (hkept : Same browser v (.bool b) ↔ v.Kept browser server f) :
    FieldSpec browser server f v (.flag b) := by
  have houtcome : fieldOutcome browser f (some (.flag b)) = .ok (.bool b) := by
    unfold fieldOutcome
    cases b <;> simp [hb]
  constructor
  · rw [houtcome]
    constructor
    · intro h
      cases h
    · exact fun h => absurd hb h.2.1
  · rw [houtcome, ← hkept]
    constructor
    · rintro ⟨w, hw, hsame⟩
      cases hw
      exact ⟨fun h => h.2.1 hb, hsame⟩
    · exact fun h => ⟨.bool b, rfl, h.2⟩

theorem option_any_lt {bound : Option ℚ} {q : ℚ} :
    (bound.any fun min => q < min) = true ↔ ¬∀ min, bound = some min → min ≤ q := by
  cases bound <;> simp

theorem option_any_gt {bound : Option ℚ} {q : ℚ} :
    (bound.any fun max => max < q) = true ↔ ¬∀ max, bound = some max → q ≤ max := by
  cases bound <;> simp

theorem numberOutcome_same {d : ℚ} (hread : browser.nt.read s.toList = some (.ofDecimal d)) :
    (∃ w, numberOutcome browser f.config s = .ok w ∧ Same browser (.number d) w) ↔
      InBounds f (.ofDecimal d) := by
  have hsame (w : Json) : Same browser (.number d) w ↔ w = .num (.ofDecimal d) := by
    constructor
    · rintro ⟨⟩
      rfl
    · rintro rfl
      exact .number d
  simp only [hsame]
  unfold numberOutcome InBounds
  rw [hread]
  cases JsNumber.ofDecimal d with
  | finite q =>
    dsimp only
    split
    · rename_i hlow
      constructor
      · rintro ⟨w, hw, -⟩
        cases hw
      · rintro ⟨q', hq, hmin, -⟩
        cases hq
        exact absurd hmin (option_any_lt.mp hlow)
    split
    · rename_i hhigh
      constructor
      · rintro ⟨w, hw, -⟩
        cases hw
      · rintro ⟨q', hq, -, hmax⟩
        cases hq
        exact absurd hmax (option_any_gt.mp hhigh)
    · rename_i hlow hhigh
      have hmin := not_not.mp (mt option_any_lt.mpr hlow)
      have hmax := not_not.mp (mt option_any_gt.mpr hhigh)
      exact ⟨fun _ => ⟨q, rfl, hmin, hmax⟩, fun _ => ⟨_, rfl, rfl⟩⟩
  | infinite negative =>
    dsimp only
    constructor
    · rintro ⟨w, hw, -⟩
      cases hw
    · rintro ⟨q, hq, -⟩
      cases hq

theorem jsonOutcome_same {w : Json} (hstable : Stable browser.nt w) (hnull : w ≠ .null) :
    (∃ sent, jsonOutcome browser (stringify browser.nt 2 w) = .ok sent ∧
      Same browser (.json w) sent) ↔ StoredValue.Kept browser server f (.json w) := by
  unfold jsonOutcome
  rw [parse_stringify hstable]
  cases w with
  | null => exact absurd rfl hnull
  | arr xs => exact ⟨fun _ => .inr (.inl ⟨xs, rfl⟩), fun _ => ⟨_, rfl, .json _⟩⟩
  | obj members => exact ⟨fun _ => .inr (.inr ⟨members, rfl⟩), fun _ => ⟨_, rfl, .json _⟩⟩
  | bool b | num n | str s =>
    constructor
    · rintro ⟨sent, hsent, -⟩
      cases hsent
    · rintro (h | ⟨xs, h⟩ | ⟨members, h⟩) <;> cases h

theorem stringify_nonempty {w : Json} (hstable : Stable browser.nt w) :
    stringify browser.nt 2 w ≠ "" := by
  obtain ⟨c, cs, hhead, -⟩ := @writeValue_head browser.nt 2 w hstable 0
  intro hempty
  have hlist := congrArg String.toList hempty
  rw [stringify, String.toList_ofList, hhead] at hlist
  cases hlist

theorem relationOutcome_ok {id : ℤ} (hread : browser.nt.Reads id) :
    relationOutcome browser (String.ofList (browser.nt.write id)) = .ok (.num (.finite id)) := by
  unfold relationOutcome
  rw [String.toList_ofList, hread.read]
  dsimp only
  rw [if_pos (isInteger_iff.mpr ⟨id, rfl⟩)]

theorem same_dateTime {ms : ℚ} {t : ℤ} (ht : |t| ≤ 8640000000000000) :
    Same browser (.dateTime ms) (.str (toISOString t)) ↔ ms = t := by
  have hparse : DateText.parse browser.zone (toISOString t).toList = some t := by
    rw [toISOString, String.toList_ofList]
    exact parse_isoText ht
  constructor
  · intro h
    cases h with
    | dateTime _ t' h' => rw [Option.some.inj (h'.symm.trans hparse)]
  · rintro rfl
    exact .dateTime _ t hparse

theorem timeClip_valid {t t' : ℤ} (h : timeClip t = some t') :
    t' = t ∧ |t| ≤ 8640000000000000 := by
  unfold timeClip at h
  split at h
  · rename_i hvalid
    exact ⟨(Option.some.inj h).symm, hvalid⟩
  · cases h

/-- A date-time comes back when its local time has no seconds, is its own and can be written. -/
theorem dateTimeOutcome_same {ms : ℚ} {t l : ℤ} (ht : timeClip ⌊ms⌋ = some t)
    (hl : timeClip (browser.zone.localTime t) = some l) :
    (∃ w, dateTimeOutcome browser (sliceText 16 (toISOString l)) = .ok w ∧
      Same browser (.dateTime ms) w) ↔ StoredValue.Kept browser server f (.dateTime ms) := by
  obtain ⟨rfl, hvalid⟩ := timeClip_valid ht
  obtain ⟨rfl, hlocal⟩ := timeClip_valid hl
  have htext : (sliceText 16 (toISOString (browser.zone.localTime ⌊ms⌋))).toList =
      (isoText (browser.zone.localTime ⌊ms⌋)).take 16 := by
    rw [sliceText, toISOString, String.toList_ofList, String.toList_ofList]
  unfold dateTimeOutcome
  rw [htext]
  by_cases hfour : FourDigits (browser.zone.localTime ⌊ms⌋)
  · rw [take_minute hfour, parse_minute hlocal]
    generalize hu : browser.zone.utc (browser.zone.localTime ⌊ms⌋ -
      browser.zone.localTime ⌊ms⌋ % 60000) = u
    have hkept : ms = u ↔ StoredValue.Kept browser server f (.dateTime ms) := by
      constructor
      · rintro rfl
        rw [Int.floor_intCast] at hu hfour
        obtain ⟨hzero, hearliest⟩ := utc_minute_iff.mp hu
        exact ⟨u, rfl, hzero, hearliest, hfour⟩
      · rintro ⟨t, rfl, hzero, hearliest, -⟩
        rw [Int.floor_intCast, utc_minute_iff.mpr ⟨hzero, hearliest⟩] at hu
        rw [hu]
    cases hclip : timeClip u with
    | none =>
      constructor
      · rintro ⟨w, hw, -⟩
        cases hw
      · intro h
        have hms := hkept.mpr h
        rw [hms, Int.floor_intCast] at hvalid
        rw [timeClip, if_pos hvalid] at hclip
        cases hclip
    | some u' =>
      obtain ⟨rfl, hu'⟩ := timeClip_valid hclip
      rw [← hkept, ← same_dateTime hu']
      constructor
      · rintro ⟨w, hw, hsame⟩
        cases hw
        exact hsame
      · exact fun hsame => ⟨_, rfl, hsame⟩
  · rw [parse_far hlocal hfour]
    constructor
    · rintro ⟨w, hw, -⟩
      cases hw
    · rintro ⟨t, rfl, -, -, hfour'⟩
      rw [Int.floor_intCast] at hfour
      exact absurd hfour' hfour

theorem sliceText_nonempty (t : ℤ) (n : ℕ) : sliceText (n + 1) (toISOString t) ≠ "" := by
  intro h
  have hlist := congrArg String.toList h
  rw [sliceText, toISOString, String.toList_ofList, String.toList_ofList] at hlist
  cases htext : isoText t with
  | nil => exact absurd (List.append_eq_nil_iff.mp htext).2 (List.cons_ne_nil _ _)
  | cons c cs =>
    rw [htext] at hlist
    cases hlist

/-- A date comes back when the server's midnight is a time of that day in UTC. -/
theorem dateOutcome_same {day t : ℤ} (hf : f.dataType = .DATE)
    (ht : timeClip (server.midnight day) = some t) :
    (∃ w, textOutcome browser f (sliceText 10 (toISOString t)) = .ok w ∧
      Same browser (.date day) w) ↔ StoredValue.Kept browser server f (.date day) := by
  obtain ⟨rfl, hvalid⟩ := timeClip_valid ht
  have htext : sliceText 10 (toISOString (server.midnight day)) =
      String.ofList ((isoText (server.midnight day)).take 10) := by
    rw [sliceText, toISOString, String.toList_ofList]
  have hsame (w : Json) : Same browser (.date day) w ↔
      w = .str (String.ofList (dateText (civilDate day))) := by
    constructor
    · rintro ⟨⟩
      rfl
    · rintro rfl
      exact .date day
  simp only [hsame]
  unfold textOutcome
  rw [hf, htext]
  dsimp only
  rw [String.toList_ofList]
  by_cases hfour : FourDigits (server.midnight day)
  · rw [take_date hfour, parse_dateText hvalid, if_neg (by simp)]
    simp only [optionOutcome_ok]
    constructor
    · rintro ⟨w, ⟨hoffered, rfl⟩, hw⟩
      have hlist := congrArg String.toList (Json.str.inj hw)
      rw [String.toList_ofList, String.toList_ofList] at hlist
      have hday := dateText_inj hfour hlist
      rw [hday] at hoffered
      exact ⟨hfour, hday, hoffered⟩
    · rintro ⟨-, hday, hoffered⟩
      rw [hday]
      exact ⟨_, ⟨hoffered, rfl⟩, rfl⟩
  · constructor
    · rintro ⟨w, hw, rfl⟩
      split at hw
      · cases hw
      · obtain ⟨-, heq⟩ := optionOutcome_ok.mp hw
        have hlist := congrArg String.toList (Json.str.inj heq)
        rw [String.toList_ofList, String.toList_ofList] at hlist
        exact absurd hlist.symm (take_far hfour _)
    · exact fun h => absurd h.1 hfour

theorem fieldSpec_null {input : FieldInput}
    (hinput : initialValue browser f.dataType (some .null) = some input) :
    FieldSpec browser server f .null input := by
  by_cases hb : f.dataType = .BOOLEAN
  · rw [hb] at hinput
    cases hinput
    refine fieldSpec_flag hb ⟨fun h => ?_, fun h => absurd hb h⟩
    cases h
  · have hempty : initialValue browser f.dataType (some .null) = some (.text "") := by
      cases htype : f.dataType with
      | BOOLEAN => exact absurd htype hb
      | _ => rfl
    obtain rfl := Option.some.inj (hempty.symm.trans hinput)
    exact fieldSpec_empty hb trivial ⟨fun _ => hb, fun _ => .null⟩

theorem fieldSpec_string {input : FieldInput}
    (htext : f.dataType ∈ [FieldDataType.STRING, .TEXT, .EMAIL, .URL, .SELECT])
    (hinput : initialValue browser f.dataType (some (.str s)) = some input) :
    FieldSpec browser server f (.text s) input := by
  have hparts : f.dataType ≠ .BOOLEAN ∧
      initialValue browser f.dataType (some (.str s)) = some (.text s) ∧
      ∀ t, textOutcome browser f t = optionOutcome f.config t := by
    unfold textOutcome
    simp only [List.mem_cons, List.not_mem_nil, or_false] at htext
    rcases htext with h | h | h | h | h <;> rw [h] <;> exact ⟨by decide, rfl, fun _ => rfl⟩
  obtain ⟨hb, hshown, houtcome⟩ := hparts
  obtain rfl := Option.some.inj (hshown.symm.trans hinput)
  have hsame (w : Json) : Same browser (.text s) w ↔ w = .str s := by
    constructor
    · rintro ⟨⟩
      rfl
    · rintro rfl
      exact .text s
  by_cases hs : s = ""
  · subst hs
    refine fieldSpec_empty hb rfl ?_
    rw [hsame]
    exact ⟨fun h => (by cases h), fun h => absurd rfl h.1⟩
  · refine fieldSpec_text hb hs hs ?_
    simp only [houtcome, optionOutcome_ok, hsame]
    exact ⟨fun ⟨w, h, _⟩ => ⟨hs, h.1⟩, fun h => ⟨_, ⟨h.2, rfl⟩, rfl⟩⟩

theorem fieldSpec_date {day : ℤ} {input : FieldInput} (hf : f.dataType = .DATE)
    (hinput : initialValue browser f.dataType (some (dateJson (server.midnight day))) =
      some input) : FieldSpec browser server f (.date day) input := by
  have hb : f.dataType ≠ .BOOLEAN := by rw [hf]; decide
  cases hclip : timeClip (server.midnight day) with
  | none =>
    have hempty : input = .text "" := by
      rw [hf, dateJson, hclip] at hinput
      exact (Option.some.inj hinput).symm
    subst hempty
    refine fieldSpec_empty hb hclip ⟨fun h => (by cases h), fun h => ?_⟩
    rw [timeClip, if_pos h.1.valid] at hclip
    cases hclip
  | some t =>
    have htext : input = .text (sliceText 10 (toISOString t)) := by
      rw [hf, dateJson, hclip] at hinput
      exact (Option.some.inj hinput).symm
    subst htext
    have hempty : ¬StoredValue.Empty server (.date day) := by
      intro h
      have hnone : timeClip (server.midnight day) = none := h
      rw [hclip] at hnone
      cases hnone
    exact fieldSpec_text hb (sliceText_nonempty t 9) hempty (dateOutcome_same hf hclip)

theorem fieldSpec_dateTime {ms : ℚ} {input : FieldInput} (hf : f.dataType = .DATETIME)
    (hinput : initialValue browser f.dataType (some (dateJson ⌊ms⌋)) = some input) :
    FieldSpec browser server f (.dateTime ms) input := by
  have hb : f.dataType ≠ .BOOLEAN := by rw [hf]; decide
  cases hclip : timeClip ⌊ms⌋ with
  | none =>
    have hempty : input = .text "" := by
      rw [hf, dateJson, hclip] at hinput
      exact (Option.some.inj hinput).symm
    subst hempty
    refine fieldSpec_empty hb hclip ⟨fun h => (by cases h), ?_⟩
    rintro ⟨t, rfl, -, -, hfour⟩
    rw [Int.floor_intCast, timeClip, if_pos (valid_of_localTime hfour)] at hclip
    cases hclip
  | some t =>
    rw [hf, dateJson, hclip] at hinput
    have hlocal : ∃ l, timeClip (browser.zone.localTime t) = some l ∧
        input = .text (sliceText 16 (toISOString l)) := by
      obtain ⟨rfl, hvalid⟩ := timeClip_valid hclip
      have hparse : DateText.parse browser.zone (toISOString ⌊ms⌋).toList = some ⌊ms⌋ := by
        rw [toISOString, String.toList_ofList]
        exact parse_isoText hvalid
      dsimp only [initialValue] at hinput
      rw [dateTimeInput, hparse] at hinput
      obtain ⟨text, htext, rfl⟩ := Option.map_eq_some_iff.mp hinput
      obtain ⟨l, hl, rfl⟩ := Option.map_eq_some_iff.mp htext
      exact ⟨l, hl, rfl⟩
    obtain ⟨l, hl, rfl⟩ := hlocal
    have hempty : ¬StoredValue.Empty server (.dateTime ms) := by
      intro h
      have hnone : timeClip ⌊ms⌋ = none := h
      rw [hclip] at hnone
      cases hnone
    refine fieldSpec_text hb (sliceText_nonempty l 15) hempty ?_
    unfold textOutcome
    rw [hf]
    exact dateTimeOutcome_same hclip hl

theorem fieldSpec_json {w : Json} {input : FieldInput} (hf : f.dataType = .JSON)
    (hstable : Stable browser.nt w)
    (hinput : initialValue browser f.dataType (some w) = some input) :
    FieldSpec browser server f (.json w) input := by
  have hb : f.dataType ≠ .BOOLEAN := by rw [hf]; decide
  rw [hf] at hinput
  by_cases hnull : w = .null
  · subst hnull
    cases hinput
    exact fieldSpec_empty hb rfl ⟨fun _ => .inl rfl, fun _ => .json _⟩
  · have htext : initialValue browser .JSON (some w) =
        some (.text (stringify browser.nt 2 w)) := by
      cases w with
      | null => exact absurd rfl hnull
      | _ => rfl
    obtain rfl := Option.some.inj (htext.symm.trans hinput)
    refine fieldSpec_text hb (stringify_nonempty hstable) hnull ?_
    unfold textOutcome
    rw [hf]
    exact jsonOutcome_same hstable hnull

theorem fieldSpec_returned {input : FieldInput} (hv : v.OfType server browser.nt f.dataType)
    (hinput : initialValue browser f.dataType (some (v.returned server)) = some input) :
    FieldSpec browser server f v input := by
  generalize hf : f.dataType = type at hv
  cases hv with
  | null => exact fieldSpec_null hinput
  | text _ s h => exact fieldSpec_string (hf ▸ h) hinput
  | number d nonempty read =>
    rw [hf] at hinput
    cases hinput
    refine fieldSpec_text (by rw [hf]; decide) nonempty id ?_
    unfold textOutcome
    rw [hf]
    exact numberOutcome_same read
  | boolean b =>
    rw [hf] at hinput
    cases hinput
    exact fieldSpec_flag hf ⟨fun _ => trivial, fun _ => .boolean b⟩
  | date day => exact fieldSpec_date hf hinput
  | dateTime ms => exact fieldSpec_dateTime hf hinput
  | json w stable => exact fieldSpec_json hf stable hinput
  | relation id read =>
    rw [hf] at hinput
    cases hinput
    have htext : jsText browser (.num (.finite id)) = String.ofList (browser.nt.write id) := by
      rw [jsText]
    have hnonempty : String.ofList (browser.nt.write id) ≠ "" := by
      intro h
      have hlist := congrArg String.toList h
      rw [String.toList_ofList] at hlist
      exact read.nonempty hlist
    have hshown : presentText browser ([("id", Json.num (.finite id))].lookup "id") =
        String.ofList (browser.nt.write id) := htext
    rw [hshown]
    refine fieldSpec_text (by rw [hf]; decide) hnonempty (fun h => h) ?_
    unfold textOutcome
    rw [hf]
    exact ⟨fun _ => trivial, fun _ => ⟨_, relationOutcome_ok read, .relation _⟩⟩

/-- The form shows something for a stored value unless its local time is out of range. -/
theorem initialValue_some (hv : v.OfType server browser.nt f.dataType) :
    (∃ input, initialValue browser f.dataType (some (v.returned server)) = some input) ↔
      v.Opens browser := by
  generalize f.dataType = type at hv
  cases hv with
  | null =>
    refine ⟨fun _ => trivial, fun _ => ?_⟩
    cases type <;> exact ⟨_, rfl⟩
  | text _ s h =>
    refine ⟨fun _ => trivial, fun _ => ?_⟩
    simp only [List.mem_cons, List.not_mem_nil, or_false] at h
    rcases h with rfl | rfl | rfl | rfl | rfl <;> exact ⟨_, rfl⟩
  | number d | boolean b | relation id => exact ⟨fun _ => trivial, fun _ => ⟨_, rfl⟩⟩
  | date day =>
    refine ⟨fun _ => trivial, fun _ => ?_⟩
    rw [StoredValue.returned, dateJson]
    split <;> exact ⟨_, rfl⟩
  | dateTime ms =>
    rw [StoredValue.returned, dateJson, StoredValue.Opens]
    cases hclip : timeClip ⌊ms⌋ with
    | none => exact ⟨fun _ t ht => (by cases ht), fun _ => ⟨_, rfl⟩⟩
    | some t =>
      obtain ⟨rfl, hvalid⟩ := timeClip_valid hclip
      have hparse : DateText.parse browser.zone (toISOString ⌊ms⌋).toList = some ⌊ms⌋ := by
        rw [toISOString, String.toList_ofList]
        exact parse_isoText hvalid
      dsimp only [initialValue]
      rw [dateTimeInput, hparse]
      dsimp only
      cases hlocal : timeClip (browser.zone.localTime ⌊ms⌋) with
      | none =>
        constructor
        · rintro ⟨input, hinput⟩
          cases hinput
        · exact fun h => absurd hlocal (h _ rfl)
      | some l =>
        refine ⟨fun _ t ht => ?_, fun _ => ⟨_, rfl⟩⟩
        rw [← Option.some.inj ht, hlocal]
        exact Option.some_ne_none l
  | json w =>
    refine ⟨fun _ => trivial, fun _ => ?_⟩
    cases w <;> exact ⟨_, rfl⟩

end Field

/-! ### The whole form -/

section Whole

variable {α β : Type} {browser : Browser} {server : Server} {fields : List FieldDefinition}

theorem forall₂_mem {R : α → β → Prop} {xs : List α} {ys : List β} (h : List.Forall₂ R xs ys)
    {x : α} (hx : x ∈ xs) : ∃ y ∈ ys, R x y := by
  induction h with
  | nil => cases hx
  | cons hxy _ ih =>
    rcases List.mem_cons.mp hx with rfl | hx
    · exact ⟨_, List.mem_cons_self, hxy⟩
    · obtain ⟨y, hy, hr⟩ := ih hx
      exact ⟨y, List.mem_cons_of_mem _ hy, hr⟩

theorem exists_forall₂ {R : α → β → Prop} {xs : List α} (h : ∀ x ∈ xs, ∃ y, R x y) :
    ∃ ys, List.Forall₂ R xs ys := by
  induction xs with
  | nil => exact ⟨[], .nil⟩
  | cons x xs ih =>
    obtain ⟨y, hy⟩ := h x List.mem_cons_self
    obtain ⟨ys, hys⟩ := ih fun z hz => h z (List.mem_cons_of_mem x hz)
    exact ⟨y :: ys, .cons hy hys⟩

theorem option_mapM_iff {f : α → Option β} {xs : List α} {ys : List β} :
    xs.mapM f = some ys ↔ List.Forall₂ (fun x y => f x = some y) xs ys := by
  induction xs generalizing ys with
  | nil =>
    rw [List.mapM_nil, List.forall₂_nil_left_iff]
    exact ⟨fun h => (Option.some.inj h).symm, fun h => congrArg some h.symm⟩
  | cons x xs ih =>
    rw [List.mapM_cons, List.forall₂_cons_left_iff]
    constructor
    · intro h
      obtain ⟨y, hy, h⟩ := Option.bind_eq_some_iff.mp h
      obtain ⟨rest, hrest, h⟩ := Option.bind_eq_some_iff.mp h
      exact ⟨y, rest, hy, ih.mp hrest, (Option.some.inj h).symm⟩
    · rintro ⟨y, rest, hy, hrest, rfl⟩
      rw [hy, Option.bind_eq_bind, Option.bind_some, ih.mpr hrest]
      rfl

theorem lookup_of_mem {kvs : List (String × α)} {key : String} {value : α}
    (hnodup : (kvs.map Prod.fst).Nodup) (hmem : (key, value) ∈ kvs) :
    kvs.lookup key = some value := by
  induction kvs with
  | nil => cases hmem
  | cons kv kvs ih =>
    rw [List.map_cons, List.nodup_cons] at hnodup
    rcases List.mem_cons.mp hmem with rfl | hmem
    · exact List.lookup_cons_self
    · have hne : (key == kv.1) = false :=
        beq_eq_false_iff_ne.mpr fun h => hnodup.1 (h ▸ List.mem_map_of_mem hmem)
      rw [List.lookup_cons, hne]
      exact ih hnodup.2 hmem

theorem lookup_setOwn {own : List (String × α)} {key k : String} {value : α} :
    (setOwn key value own).lookup k = if k = key then some value else own.lookup k := by
  induction own with
  | nil =>
    rw [setOwn, List.lookup_cons]
    by_cases hk : k = key
    · rw [if_pos hk, beq_iff_eq.mpr hk]
    · rw [if_neg hk, beq_eq_false_iff_ne.mpr hk]
  | cons kv own ih =>
    rw [setOwn]
    split
    · rename_i hkey
      rw [List.lookup_cons, List.lookup_cons, hkey]
      by_cases hk : k = key
      · rw [if_pos hk, beq_iff_eq.mpr hk]
      · rw [if_neg hk, beq_eq_false_iff_ne.mpr hk]
    · rename_i hkey
      rw [List.lookup_cons, List.lookup_cons, ih]
      by_cases hk : k = kv.1
      · have hne : k ≠ key := fun h => hkey (hk.symm.trans h)
        rw [if_neg hne, if_neg hne, beq_iff_eq.mpr hk]
      · rw [beq_eq_false_iff_ne.mpr hk]

theorem lookup_assignKey {own : List (String × α)} {key k : String} {value : α} :
    (assignKey own key value).lookup k =
      if k = key ∧ k ≠ PROTO then some value else own.lookup k := by
  unfold assignKey
  split
  · rename_i hproto
    rw [if_neg fun h => h.2 (h.1.trans hproto)]
  · rename_i hproto
    rw [lookup_setOwn]
    refine if_congr ⟨fun h => ⟨h, ?_⟩, fun h => h.1⟩ rfl rfl
    rw [h]
    exact hproto

/-- The object that is left when every field assigns what it gives to its slug. -/
def gather (give : FieldDefinition → Option α) (own : List (String × α)) (f : FieldDefinition) :
    List (String × α) :=
  match give f with
  | some value => assignKey own f.slug value
  | none => own

theorem lookup_gather {give : FieldDefinition → Option α} (fs : List FieldDefinition)
    (hnodup : (fs.map FieldDefinition.slug).Nodup) (k : String) (value : α) :
    (fs.foldl (gather give) []).lookup k = some value ↔
      k ≠ PROTO ∧ ∃ f ∈ fs, f.slug = k ∧ give f = some value := by
  induction fs using List.reverseRecOn with
  | nil =>
    constructor
    · intro h
      cases h
    · rintro ⟨-, f, hf, -⟩
      cases hf
  | append_singleton fs f ih =>
    rw [List.map_append, List.nodup_append] at hnodup
    obtain ⟨hfs, -, hdisjoint⟩ := hnodup
    have hnew : ∀ g ∈ fs, g.slug ≠ f.slug := fun g hg =>
      hdisjoint _ (List.mem_map_of_mem hg) _ List.mem_cons_self
    rw [List.foldl_append, List.foldl_cons, List.foldl_nil]
    have hold := ih hfs
    have hlast {P : FieldDefinition → Prop} :
        (∃ g ∈ fs ++ [f], P g) ↔ (∃ g ∈ fs, P g) ∨ P f := by
      simp only [List.mem_append, List.mem_singleton, or_and_right, exists_or, exists_eq_left]
    rw [hlast]
    unfold gather
    cases hgive : give f with
    | none =>
      dsimp only
      refine hold.trans (and_congr_right fun _ => ⟨.inl, ?_⟩)
      rintro (h | ⟨-, h⟩)
      · exact h
      · cases h
    | some w =>
      dsimp only
      rw [lookup_assignKey]
      by_cases hk : k = f.slug ∧ k ≠ PROTO
      · obtain ⟨rfl, hproto⟩ := hk
        rw [if_pos ⟨rfl, hproto⟩]
        constructor
        · exact fun h => ⟨hproto, .inr ⟨rfl, h⟩⟩
        · rintro ⟨-, ⟨g, hg, hslug, -⟩ | ⟨-, h⟩⟩
          · exact absurd hslug (hnew g hg)
          · exact h
      · rw [if_neg hk]
        refine hold.trans (and_congr_right fun hproto => ⟨.inl, ?_⟩)
        rintro (h | ⟨hslug, -⟩)
        · exact h
        · exact absurd ⟨hslug.symm, hproto⟩ hk

/-- The error that a field gives. -/
def errorOf {ε : Type} : Except ε α → Option ε
  | .error e => some e
  | .ok _ => none

/-- What a field sends. -/
def sent (browser : Browser) (values : List (String × FieldInput)) (f : FieldDefinition) :
    Option Json := (fieldOutcome browser f (values.lookup f.slug)).toOption

def refused (browser : Browser) (values : List (String × FieldInput)) (f : FieldDefinition) :
    Option FormError := errorOf (fieldOutcome browser f (values.lookup f.slug))

theorem collectField_gather (values : List (String × FieldInput)) (c : FormResult)
    (f : FieldDefinition) :
    (collectField browser values c f).payload = gather (sent browser values) c.payload f ∧
    (collectField browser values c f).nextErrors =
      gather (refused browser values) c.nextErrors f := by
  unfold collectField gather sent refused
  cases fieldOutcome browser f (values.lookup f.slug) <;> exact ⟨rfl, rfl⟩

theorem collected (values : List (String × FieldInput)) (fs : List FieldDefinition)
    (c : FormResult) :
    (fs.foldl (collectField browser values) c).payload =
      fs.foldl (gather (sent browser values)) c.payload ∧
    (fs.foldl (collectField browser values) c).nextErrors =
      fs.foldl (gather (refused browser values)) c.nextErrors := by
  induction fs generalizing c with
  | nil => exact ⟨rfl, rfl⟩
  | cons f fs ih =>
    obtain ⟨hpayload, herrors⟩ := collectField_gather values c f
    obtain ⟨hpayload', herrors'⟩ := ih (collectField browser values c f)
    rw [List.foldl_cons, List.foldl_cons, List.foldl_cons, hpayload', herrors', hpayload, herrors]
    exact ⟨rfl, rfl⟩

/-- The form is submitted with what its fields send, unless one of them is refused. -/
theorem buildPayload_spec (values : List (String × FieldInput))
    (hnodup : (fields.map FieldDefinition.slug).Nodup) :
    ((∀ f ∈ fields, f.slug ≠ PROTO → refused browser values f = none) ∧
      ∃ payload, buildPayload browser fields values = .ok payload ∧
        ∀ f ∈ fields, ∀ v, payload.lookup f.slug = some v ↔
          f.slug ≠ PROTO ∧ sent browser values f = some v) ∨
    (∃ f ∈ fields, f.slug ≠ PROTO ∧ refused browser values f ≠ none) ∧
      ∃ errors, buildPayload browser fields values = .error errors ∧
        ∀ f ∈ fields, ∀ e, errors.lookup f.slug = some e ↔
          f.slug ≠ PROTO ∧ refused browser values f = some e := by
  have hown {α : Type} {give : FieldDefinition → Option α} {f : FieldDefinition} (hf : f ∈ fields)
      (v : α) : (fields.foldl (gather give) []).lookup f.slug = some v ↔
        f.slug ≠ PROTO ∧ give f = some v := by
    rw [lookup_gather fields hnodup]
    refine and_congr_right fun _ => ⟨?_, fun h => ⟨f, hf, rfl, h⟩⟩
    rintro ⟨g, hg, hslug, hgive⟩
    rwa [List.inj_on_of_nodup_map hnodup hg hf hslug] at hgive
  obtain ⟨hpayload, herrors⟩ := @collected browser values fields ⟨[], []⟩
  unfold buildPayload
  dsimp only
  rw [hpayload, herrors]
  cases herrs : fields.foldl (gather (refused browser values)) [] with
  | nil =>
    refine .inl ⟨fun f hf hproto => ?_, _, rfl, fun f hf v => hown hf v⟩
    have hnone := @hown _ (refused browser values) f hf
    rw [herrs] at hnone
    cases hrefused : refused browser values f with
    | none => rfl
    | some e => exact absurd ((hnone e).mpr ⟨hproto, hrefused⟩) (by simp)
  | cons kv rest =>
    refine .inr ⟨?_, _, rfl, fun f hf e => ?_⟩
    · have hfirst : (fields.foldl (gather (refused browser values)) []).lookup kv.1 =
          some kv.2 := by
        rw [herrs]
        exact List.lookup_cons_self
      obtain ⟨hproto, f, hf, hslug, hrefused⟩ := (lookup_gather fields hnodup _ _).mp hfirst
      rw [← hslug] at hproto
      exact ⟨f, hf, hproto, by rw [hrefused]; exact Option.some_ne_none _⟩
    · rw [← herrs]
      exact hown hf e

theorem returned_lookup (hnodup : (fields.map FieldDefinition.slug).Nodup)
    (row : StoredRow browser.nt server fields) {f : FieldDefinition} (hf : f ∈ fields) :
    row.returned.lookup f.slug = some ((row.value f.slug).returned server) := by
  refine lookup_of_mem ?_ (List.mem_map_of_mem hf)
  rw [StoredRow.returned, List.map_map]
  exact hnodup

theorem initialValues_some (hnodup : (fields.map FieldDefinition.slug).Nodup)
    (row : StoredRow browser.nt server fields) {values : List (String × FieldInput)}
    (h : initialValues browser fields row.returned = some values) {f : FieldDefinition}
    (hf : f ∈ fields) : ∃ input,
      initialValue browser f.dataType (some ((row.value f.slug).returned server)) = some input ∧
      values.lookup f.slug = some input := by
  have hpairs := option_mapM_iff.mp h
  have hkeys : fields.map FieldDefinition.slug = values.map Prod.fst := by
    refine forall₂_map_eq hpairs fun g kv hkv => ?_
    obtain ⟨input, -, rfl⟩ := Option.map_eq_some_iff.mp hkv
    rfl
  obtain ⟨kv, hmem, hkv⟩ := forall₂_mem hpairs hf
  obtain ⟨input, hinput, rfl⟩ := Option.map_eq_some_iff.mp hkv
  rw [returned_lookup hnodup row hf] at hinput
  exact ⟨input, hinput, lookup_of_mem (hkeys ▸ hnodup) hmem⟩

theorem initialValues_opens (hnodup : (fields.map FieldDefinition.slug).Nodup)
    (row : StoredRow browser.nt server fields) :
    (∃ values, initialValues browser fields row.returned = some values) ↔
      ∀ f ∈ fields, (row.value f.slug).Opens browser := by
  constructor
  · rintro ⟨values, hvalues⟩ f hf
    obtain ⟨input, hinput, -⟩ := initialValues_some hnodup row hvalues hf
    exact (initialValue_some (row.typed f hf)).mp ⟨input, hinput⟩
  · intro hopens
    have hsome : ∀ f ∈ fields, ∃ kv, (initialValue browser f.dataType
        (row.returned.lookup f.slug)).map (fun value => (f.slug, value)) = some kv := by
      intro f hf
      obtain ⟨input, hinput⟩ := (initialValue_some (row.typed f hf)).mpr (hopens f hf)
      rw [returned_lookup hnodup row hf, hinput]
      exact ⟨_, rfl⟩
    obtain ⟨values, hvalues⟩ := exists_forall₂ hsome
    exact ⟨values, option_mapM_iff.mpr hvalues⟩

def RequiredEmpty (server : Server) (f : FieldDefinition) (v : StoredValue) : Prop :=
  f.required = true ∧ f.dataType ≠ .BOOLEAN ∧ v.Empty server

theorem errorOf_eq_some {ε : Type} {x : Except ε α} {e : ε} :
    errorOf x = some e ↔ x = .error e := by
  cases x <;> simp [errorOf]

theorem toOption_eq_some {ε : Type} {x : Except ε α} {a : α} :
    x.toOption = some a ↔ x = .ok a := by
  cases x <;> simp [Except.toOption]

theorem field_submitted (hnodup : (fields.map FieldDefinition.slug).Nodup)
    (row : StoredRow browser.nt server fields) {values : List (String × FieldInput)}
    (h : initialValues browser fields row.returned = some values) {f : FieldDefinition}
    (hf : f ∈ fields) :
    (refused browser values f = some (formError "required" none) ↔
      RequiredEmpty server f (row.value f.slug)) ∧
    ((∃ w, sent browser values f = some w ∧ Same browser (row.value f.slug) w) ↔
      ¬RequiredEmpty server f (row.value f.slug) ∧
        (row.value f.slug).Kept browser server f) := by
  obtain ⟨input, hinput, hlookup⟩ := initialValues_some hnodup row h hf
  have hspec := fieldSpec_returned (row.typed f hf) hinput
  unfold refused sent
  rw [hlookup, errorOf_eq_some]
  simp only [toOption_eq_some]
  exact ⟨hspec.required, hspec.kept⟩

theorem refused_of_sent {values : List (String × FieldInput)} {f : FieldDefinition} {w : Json}
    (h : sent browser values f = some w) : refused browser values f = none := by
  unfold refused
  rw [toOption_eq_some.mp h]
  rfl

/-- What the submission of an open form comes to. -/
theorem submitted_iff (hnodup : (fields.map FieldDefinition.slug).Nodup)
    (row : StoredRow browser.nt server fields) {values : List (String × FieldInput)}
    (h : initialValues browser fields row.returned = some values) :
    ((∃ errors, buildPayload browser fields values = .error errors ∧ ∃ f ∈ fields,
        f.required = true ∧ errors.lookup f.slug = some (formError "required" none)) ∨
      ∃ payload, buildPayload browser fields values = .ok payload ∧ ∀ f ∈ fields, ∃ v,
        payload.lookup f.slug = some v ∧ Same browser (row.value f.slug) v) ↔
    (∃ f ∈ fields, f.slug ≠ PROTO ∧ RequiredEmpty server f (row.value f.slug)) ∨
      ∀ f ∈ fields, f.slug ≠ PROTO ∧ (row.value f.slug).Kept browser server f := by
  have hfield := fun {f} (hf : f ∈ fields) => field_submitted hnodup row h hf
  rcases buildPayload_spec values hnodup with
    ⟨hnone, payload, hpayload, hown⟩ | ⟨⟨g, hg, hproto, hrefused⟩, errors, herrors, hown⟩
  · have hfilled : ∀ f ∈ fields, f.slug ≠ PROTO → ¬RequiredEmpty server f (row.value f.slug) := by
      intro f hf hproto hempty
      have herror := (hfield hf).1.mpr hempty
      rw [hnone f hf hproto] at herror
      cases herror
    constructor
    · rintro (⟨errors, herrors, -⟩ | ⟨payload', hpayload', hsame⟩)
      · rw [hpayload] at herrors
        cases herrors
      · rw [hpayload] at hpayload'
        cases hpayload'
        refine .inr fun f hf => ?_
        obtain ⟨v, hv, hsamev⟩ := hsame f hf
        obtain ⟨hproto, hsent⟩ := (hown f hf v).mp hv
        exact ⟨hproto, ((hfield hf).2.mp ⟨v, hsent, hsamev⟩).2⟩
    · rintro (⟨f, hf, hproto, hempty⟩ | hkept)
      · exact absurd hempty (hfilled f hf hproto)
      · refine .inr ⟨payload, hpayload, fun f hf => ?_⟩
        obtain ⟨hproto, hkeptf⟩ := hkept f hf
        obtain ⟨v, hsent, hsame⟩ := (hfield hf).2.mpr ⟨hfilled f hf hproto, hkeptf⟩
        exact ⟨v, (hown f hf v).mpr ⟨hproto, hsent⟩, hsame⟩
  · constructor
    · rintro (⟨errors', herrors', f, hf, -, hlookup⟩ | ⟨payload, hpayload, -⟩)
      · rw [herrors] at herrors'
        cases herrors'
        obtain ⟨hprotof, hrequired⟩ := (hown f hf _).mp hlookup
        exact .inl ⟨f, hf, hprotof, (hfield hf).1.mp hrequired⟩
      · rw [herrors] at hpayload
        cases hpayload
    · intro hcases
      have hempty : ∃ f ∈ fields, f.slug ≠ PROTO ∧ RequiredEmpty server f (row.value f.slug) := by
        rcases hcases with hempty | hkept
        · exact hempty
        · by_contra hnone
          have hfilled : ¬RequiredEmpty server g (row.value g.slug) :=
            fun hempty => hnone ⟨g, hg, hproto, hempty⟩
          obtain ⟨w, hsent, -⟩ := (hfield hg).2.mpr ⟨hfilled, (hkept g hg).2⟩
          exact hrefused (refused_of_sent hsent)
      obtain ⟨f, hf, hprotof, hemptyf⟩ := hempty
      exact .inl ⟨errors, herrors, f, hf, hemptyf.1,
        (hown f hf _).mpr ⟨hprotof, (hfield hf).1.mpr hemptyf⟩⟩

/-- Submitting a row untouched is refused for a required empty field, or sends every field as it
is stored, exactly when the form opens and there is such a field, or every field is one that
the form gives back. -/
theorem untouched_edit_keeps_row_iff {detail : TableDetail browser.nt}
    (row : StoredRow browser.nt server detail.fields) :
    EditKeepsRow browser server row ↔
      (∀ f ∈ detail.fields, (row.value f.slug).Opens browser) ∧
      ((∃ f ∈ detail.fields, f.slug ≠ PROTO ∧ RequiredEmpty server f (row.value f.slug)) ∨
        ∀ f ∈ detail.fields, f.slug ≠ PROTO ∧ (row.value f.slug).Kept browser server f) := by
  have hnodup := detail.slugs
  rw [← initialValues_opens hnodup row]
  constructor
  · rintro ⟨result, hresult, hkeeps⟩
    obtain ⟨values, hvalues, rfl⟩ := Option.map_eq_some_iff.mp hresult
    exact ⟨⟨values, hvalues⟩, (submitted_iff hnodup row hvalues).mp hkeeps⟩
  · rintro ⟨⟨values, hvalues⟩, hcases⟩
    refine ⟨buildPayload browser detail.fields values, ?_,
      (submitted_iff hnodup row hvalues).mpr hcases⟩
    rw [submitUntouched, hvalues]
    rfl

end Whole

/-! ### A checkbox that was never set -/

def utcZone : Zone where
  offset _ := 0
  utc l := l
  offset_lt _ := by decide
  utc_minutes l := by rw [sub_self]; exact dvd_zero _
  utc_earliest t := by rw [mul_zero, add_zero]; exact ⟨le_refl t, by rw [add_zero]⟩

def utcBrowser : Browser := ⟨wholeNumbers, utcZone⟩

def utcServer : Server := ⟨utcZone, fun d => toString d.num⟩

def activeField : FieldDefinition where
  id := "f1"
  name := "active"
  slug := "active"
  dataType := .BOOLEAN
  required := false
  config := none
  relationTargetTableId := none

def activeTable : TableDetail utcBrowser.nt where
  fields := [activeField]
  ids := List.nodup_singleton _
  slugs := List.nodup_singleton _
  named f hf := by rw [List.mem_singleton.mp hf]; rfl
  typed f hf _ := by rw [List.mem_singleton.mp hf]; rfl
  config f hf members hconfig := by
    rw [List.mem_singleton.mp hf] at hconfig
    cases hconfig

def unsetRow : StoredRow utcBrowser.nt utcServer activeTable.fields where
  value _ := .null
  typed f _ := .null f.dataType

/-- A boolean that is null is sent as false. -/
theorem unset_boolean_becomes_false :
    submitUntouched utcBrowser activeTable.fields unsetRow.returned =
      some (.ok [("active", .bool false)]) ∧
    ¬EditKeepsRow utcBrowser utcServer unsetRow := by
  have hsubmit : submitUntouched utcBrowser activeTable.fields unsetRow.returned =
      some (.ok [("active", .bool false)]) := rfl
  refine ⟨hsubmit, ?_⟩
  rintro ⟨result, hresult, hkeeps⟩
  rw [hsubmit] at hresult
  cases hresult
  rcases hkeeps with ⟨errors, herrors, -⟩ | ⟨payload, hpayload, hsame⟩
  · cases herrors
  · cases hpayload
    obtain ⟨v, hv, hsamev⟩ := hsame activeField List.mem_cons_self
    cases hv
    cases hsamev

end Flexi.Client
