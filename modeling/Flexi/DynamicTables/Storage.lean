import Flexi.Common.JsonUnits
import Flexi.DynamicTables.Rows
import Flexi.DynamicTables.Worker
import Flexi.Library.Doubles

/-!
# Values in their columns

What the driver sends for a value, what a column makes of it and what comes back.
JSON texts are JSON values whose numbers are decimals; an object has no order of
keys, so that of `jsonb` is not shown.
-/

namespace Flexi

/-- The number that JavaScript reads from a decimal. -/
def JsNumber.ofDecimal (d : ℚ) : JsNumber :=
  if |Library.binary64 d| < 2 ^ 1024 then .finite (Library.binary64 d)
  else .infinite (decide (d < 0))

def JsNumber.isFinite : JsNumber → Bool
  | .finite _ => true
  | .infinite _ => false

theorem JsNumber.ofDecimal_eq_finite {d q : ℚ} (h : ofDecimal d = .finite q) :
    Library.binary64 d = q := by
  unfold ofDecimal at h
  split at h
  · cases h
    rfl
  · cases h

namespace Json

mutual
/-- Every number in a value, those of its members too. -/
def numbers : Json → List JsNumber
  | .num n => [n]
  | .arr xs => numbersOfList xs
  | .obj fields => numbersOfFields fields
  | .null | .bool _ | .str _ => []

def numbersOfList : List Json → List JsNumber
  | [] => []
  | x :: xs => x.numbers ++ numbersOfList xs

def numbersOfFields : List (String × Json) → List JsNumber
  | [] => []
  | (_, x) :: fields => x.numbers ++ numbersOfFields fields
end

mutual
/-- Every string in a value, its keys too. -/
def strings : Json → List String
  | .str s => [s]
  | .arr xs => stringsOfList xs
  | .obj fields => stringsOfFields fields
  | .null | .bool _ | .num _ => []

def stringsOfList : List Json → List String
  | [] => []
  | x :: xs => x.strings ++ stringsOfList xs

def stringsOfFields : List (String × Json) → List String
  | [] => []
  | (key, x) :: fields => key :: x.strings ++ stringsOfFields fields
end

mutual
def mapNumbers (f : JsNumber → Json) : Json → Json
  | .num n => f n
  | .arr xs => .arr (mapNumbersOfList f xs)
  | .obj fields => .obj (mapNumbersOfFields f fields)
  | .null => .null
  | .bool b => .bool b
  | .str s => .str s

def mapNumbersOfList (f : JsNumber → Json) : List Json → List Json
  | [] => []
  | x :: xs => x.mapNumbers f :: mapNumbersOfList f xs

def mapNumbersOfFields (f : JsNumber → Json) : List (String × Json) → List (String × Json)
  | [] => []
  | (key, x) :: fields => (key, x.mapNumbers f) :: mapNumbersOfFields f fields
end

mutual
theorem mapNumbers_mapNumbers {f g : JsNumber → Json} : ∀ x : Json,
    (x.mapNumbers f).mapNumbers g = x ↔ ∀ n ∈ x.numbers, (f n).mapNumbers g = .num n
  | .null => by simp [mapNumbers, numbers]
  | .bool _ => by simp [mapNumbers, numbers]
  | .str _ => by simp [mapNumbers, numbers]
  | .num n => by simp [mapNumbers, numbers]
  | .arr xs => by simp [mapNumbers, numbers, mapNumbersOfList_mapNumbers xs]
  | .obj fields => by simp [mapNumbers, numbers, mapNumbersOfFields_mapNumbers fields]

theorem mapNumbersOfList_mapNumbers {f g : JsNumber → Json} : ∀ xs : List Json,
    mapNumbersOfList g (mapNumbersOfList f xs) = xs ↔
      ∀ n ∈ numbersOfList xs, (f n).mapNumbers g = .num n
  | [] => by simp [mapNumbersOfList, numbersOfList]
  | x :: xs => by
    simp only [mapNumbersOfList, numbersOfList, List.cons.injEq, List.forall_mem_append,
      mapNumbers_mapNumbers x, mapNumbersOfList_mapNumbers xs]

theorem mapNumbersOfFields_mapNumbers {f g : JsNumber → Json} : ∀ fields : List (String × Json),
    mapNumbersOfFields g (mapNumbersOfFields f fields) = fields ↔
      ∀ n ∈ numbersOfFields fields, (f n).mapNumbers g = .num n
  | [] => by simp [mapNumbersOfFields, numbersOfFields]
  | (key, x) :: fields => by
    simp only [mapNumbersOfFields, numbersOfFields, List.cons.injEq, Prod.mk.injEq, true_and,
      List.forall_mem_append, mapNumbers_mapNumbers x, mapNumbersOfFields_mapNumbers fields]
end

end Json

namespace DynamicTables
open Flexi.Library

/-- What the driver and the database do with the texts of numbers and times: the
decimal that `Number.prototype.toString` prints, the day and the instant that a
text is to Postgres, and the instant that node-postgres makes of a day. -/
structure Storage where
  decimal : ℚ → ℚ
  date : String → Option ℤ
  timestamptz : String → Option ℚ
  midnight : ℤ → ℚ

def hasNul (s : String) : Bool := s.toList.contains (Char.ofNat 0)

/-- `varchar(255)`: blanks beyond the length are cut off. -/
def varchar255 (s : String) : Option String :=
  if s.length ≤ 255 then some s
  else if (s.toList.drop 255).all (· = ' ') then some (String.ofList (s.toList.take 255))
  else none

/-- `numeric(8, 2)` -/
def numeric82 (x : ℚ) : Option ℚ :=
  let cents := roundHalfAway (x * 100)
  if |cents| < 10 ^ 8 then some ((cents : ℚ) / 100) else none

/-- The text that `JSON.stringify` prints; it has no infinity. -/
def Storage.stringify (st : Storage) : Json → Json :=
  Json.mapNumbers fun n => match n with
    | .finite q => .num (.finite (st.decimal q))
    | .infinite _ => .null

/-- `JSON.parse` of a text. -/
def parseJson : Json → Json :=
  Json.mapNumbers fun n => match n with
    | .finite d => .num (.ofDecimal d)
    | .infinite negative => .num (.infinite negative)

/-- An object is sent as JSON. An array is sent as an array literal, which is no JSON
but for `{}`. -/
def Storage.jsonb (st : Storage) : Json → Option Json
  | .obj fields =>
    if (Json.obj fields).strings.any hasNul then none else some (st.stringify (.obj fields))
  | .arr [] => some (.obj [])
  | _ => none

/-- A bound value in a column of the type; the pairings that no accepted value has are
left out. -/
def Storage.input (st : Storage) : PgType → Json → Option Cell
  | .varchar255, .str s => if hasNul s then none else (varchar255 s).map .str
  | .text, .str s => if hasNul s then none else some (.str s)
  | .decimal, .num (.finite q) => (numeric82 (st.decimal q)).map .num
  | .boolean, .bool b => some (.bool b)
  | .date, .str s => (st.date s).map fun day => .instant (st.midnight day)
  | .timestamptz, .str s => (st.timestamptz s).map .instant
  | .jsonb, v => (st.jsonb v).map .json
  | _, _ => none

def Storage.postgres (st : Storage) (pg : Postgres) : Postgres := { pg with input := st.input }

/-- An insert of a value. The driver sends a string in UTF-8, where U+FFFD stands for a
surrogate by itself; in a JSON text such a surrogate is an escape, which `jsonb` refuses. -/
def Storage.write (st : Storage) (pg : Postgres) (t : PhysTable) (row : Row)
    (kv : String × JsonUnits) : Except HttpError Row :=
  if ((t.columns.lookup kv.1).any fun d => d.type == .jsonb) && !kv.2.wellFormed then
    .error .unexpected
  else writeCell (st.postgres pg) t row (kv.1, kv.2.toWellFormed)

/-- What the checks see of a payload: of a string its length and the date it denotes, which are
those of its well-formed text (`utf16Length_wellFormedText`), and whether it is one of the
options. There an option with a U+FFFD admits more strings than `enum.includes` does. -/
def checkedPayload (data : List (String × JsonUnits)) : List (String × Json) :=
  data.map fun kv => (kv.1, kv.2.toWellFormed)

/-- A cell holds a value that has only texts: the number, string, boolean, instant or JSON
value that it denotes. -/
def Cell.Denotes (js : JsRuntime) : Cell → Json → Prop
  | .null, .null => True
  | .str s, .str s' => s = s'
  | .num d, .num n => JsNumber.ofDecimal d = n
  | .bool b, .bool b' => b = b'
  | .instant ms, .str s => js.dateParse s = some ms
  | .json text, v => parseJson text = v
  | _, _ => False

/-- What is read from a cell is the value. -/
def Cell.ReadsAs (js : JsRuntime) : Cell → JsonUnits → Prop
  | .null, .null => True
  | .str s, .str units => textUnits s = units
  | .num d, .num n => JsNumber.ofDecimal d = n
  | .bool b, .bool b' => b = b'
  | .instant ms, .str units => js.dateParse (wellFormedText units) = some ms
  | .json text, v => (parseJson text).units = v
  | _, _ => False

/-- Texts and other values that a column can hold. -/
def FitsColumn (js : JsRuntime) (st : Storage) : FieldDataType → Json → Prop
  | _, .null => True
  | .STRING, .str s | .EMAIL, .str s | .URL, .str s | .SELECT, .str s =>
    hasNul s = false ∧ s.length ≤ 255
  | .TEXT, .str s => hasNul s = false
  | .NUMBER, .num n => ∃ cents : ℤ, |cents| < 10 ^ 8 ∧ JsNumber.ofDecimal ((cents : ℚ) / 100) = n
  | .BOOLEAN, .bool _ => True
  | .DATE, .str s => ∃ day, st.date s = some day ∧ js.dateParse s = some (st.midnight day)
  | .DATETIME, .str s => ∃ ms, st.timestamptz s = some ms ∧ js.dateParse s = some ms
  | .JSON, .obj fields => (Json.obj fields).strings.any hasNul = false ∧
    ∀ n ∈ (Json.obj fields).numbers, n.isFinite = true
  | _, _ => False

/-- The types whose values are texts or have texts in them. -/
def FieldDataType.textual : FieldDataType → Bool
  | .STRING | .TEXT | .EMAIL | .URL | .SELECT | .JSON => true
  | _ => false

/-- The accepted values that their columns can hold. -/
structure Storable (js : JsRuntime) (st : Storage) (dataType : FieldDataType) (v : JsonUnits) :
    Prop where
  fits : FitsColumn js st dataType v.toWellFormed
  wellFormed : dataType.textual = true → v.wellFormed = true

/-! ### One type at a time -/

section
variable {js : JsRuntime} {st : Storage}

theorem varchar255_eq_self {s s' : String} (h : varchar255 s = some s') :
    s' = s ↔ s.length ≤ 255 := by
  unfold varchar255 at h
  split at h
  · cases h
    simpa
  · rename_i hlong
    split at h
    · cases h
      constructor
      · intro heq
        have hlen : (String.ofList (s.toList.take 255)).length = s.length := by rw [heq]
        simp at hlen
        omega
      · intro hle
        exact absurd hle hlong
    · cases h

/-- Cents that JavaScript reads as the number are the cents that are stored for it. -/
theorem numeric82_of_cents {q : ℚ} {cents : ℤ} (hc : |cents| < 10 ^ 8)
    (hread : JsNumber.ofDecimal ((cents : ℚ) / 100) = .finite q)
    (hprint : JsNumber.ofDecimal (st.decimal q) = .finite q) :
    numeric82 (st.decimal q) = some ((cents : ℚ) / 100) := by
  have hcents : |(cents : ℚ)| < 10 ^ 8 := by exact_mod_cast hc
  have hsmall : |(cents / 100 : ℚ)| ≤ 2 ^ 20 := by
    rw [abs_div]
    norm_num at hcents ⊢
    linarith
  have hdouble : binary64 (st.decimal q) = binary64 (cents / 100) :=
    (JsNumber.ofDecimal_eq_finite hprint).trans (JsNumber.ofDecimal_eq_finite hread).symm
  have hclose := abs_sub_le_of_binary64_eq hdouble hsmall
  have hround : roundHalfAway (st.decimal q * 100) = cents := by
    apply roundHalfAway_eq
    have heq : st.decimal q * 100 - cents = (st.decimal q - cents / 100) * 100 := by ring
    rw [heq, abs_mul]
    norm_num at hclose ⊢
    linarith
  simp only [numeric82, hround, if_pos hc]

theorem ofDecimal_cents_isFinite {cents : ℤ} (hc : |cents| < 10 ^ 8) :
    (JsNumber.ofDecimal ((cents : ℚ) / 100)).isFinite = true := by
  have hcents : |(cents : ℚ)| < 10 ^ 8 := by exact_mod_cast hc
  have hsmall : |(cents / 100 : ℚ)| ≤ 10 ^ 6 := by
    rw [abs_div]
    norm_num at hcents ⊢
    linarith
  have herror := abs_binary64_sub (cents / 100)
  have htri := abs_add_le (cents / 100 : ℚ) (binary64 (cents / 100) - cents / 100)
  rw [add_sub_cancel] at htri
  have hbound : |binary64 ((cents : ℚ) / 100)| < 2 ^ 20 := by
    norm_num at hsmall herror ⊢
    linarith
  have hrange : |binary64 ((cents : ℚ) / 100)| < 2 ^ 1024 :=
    hbound.trans_le (pow_le_pow_right₀ (by norm_num) (by omega))
  rw [JsNumber.ofDecimal, if_pos hrange]
  rfl

theorem number_fits {q : ℚ} (hprint : JsNumber.ofDecimal (st.decimal q) = .finite q) :
    (∃ d, numeric82 (st.decimal q) = some d ∧ JsNumber.ofDecimal d = .finite q) ↔
      ∃ cents : ℤ, |cents| < 10 ^ 8 ∧ JsNumber.ofDecimal ((cents : ℚ) / 100) = .finite q := by
  constructor
  · rintro ⟨d, hd, hread⟩
    simp only [numeric82] at hd
    split at hd
    · rename_i hc
      cases hd
      exact ⟨_, hc, hread⟩
    · cases hd
  · rintro ⟨cents, hc, hread⟩
    exact ⟨(cents : ℚ) / 100, numeric82_of_cents hc hread hprint, hread⟩

/-- A JSON text is read back as the value, unless an infinity was in it. -/
theorem parseJson_stringify {v : Json}
    (hprint : ∀ q, JsNumber.ofDecimal q = .finite q →
      JsNumber.ofDecimal (st.decimal q) = .finite q)
    (hv : ∀ q, .finite q ∈ v.numbers → JsNumber.ofDecimal q = .finite q) :
    parseJson (st.stringify v) = v ↔ ∀ n ∈ v.numbers, n.isFinite = true := by
  rw [parseJson, Storage.stringify, Json.mapNumbers_mapNumbers]
  apply forall₂_congr
  intro n hn
  cases n with
  | finite q =>
    have hq : JsNumber.ofDecimal (st.decimal q) = .finite q := hprint q (hv q hn)
    simp [Json.mapNumbers, JsNumber.isFinite, hq]
  | infinite negative => simp [Json.mapNumbers, JsNumber.isFinite]

/-! ### Accepted values -/

theorem validateRowPayload_field {schema : TableValidationSchema} {data : List (String × Json)}
    {isPartial : Bool} {key : String} {rule : FieldValidationRule} {v : Json}
    (haccepts : validateRowPayload js schema data isPartial = .ok ())
    (hrule : (key, rule) ∈ schema.fields)
    (hv : data.find? (fun kv => kv.1 == rule.slug) = some (rule.slug, v)) :
    v = .null ∧ rule.required = false ∨ v ≠ .null ∧ checkFieldType js rule v = none := by
  have hfield : checkField js data isPartial rule = [] := by
    unfold validateRowPayload at haccepts
    split at haccepts
    · rename_i hnone
      exact List.flatMap_eq_nil_iff.mp hnone _ hrule
    · cases haccepts
  rw [checkField, hv] at hfield
  cases v with
  | null =>
    left
    simpa using hfield
  | _ =>
    right
    refine ⟨by simp, ?_⟩
    simp only at hfield
    split at hfield
    · cases hfield
    · assumption

theorem writeCell_null {pg : Postgres} {t : PhysTable} {row : Row} {slug : String} {type : PgType}
    (hcolumn : t.columns.lookup slug = some (typedColumn type false)) :
    writeCell pg t row (slug, .null) = .ok (Function.update row slug .null) := by
  simp [writeCell, hcolumn, typedColumn]

theorem writeCell_input {pg : Postgres} {t : PhysTable} {row : Row} {slug : String} {type : PgType}
    {required : Bool} {v : Json} {P : Cell → Prop}
    (hcolumn : t.columns.lookup slug = some (typedColumn type required)) (hv : v ≠ .null) :
    (∃ row', writeCell pg t row (slug, v) = .ok row' ∧ P (row' slug)) ↔
      ∃ cell, pg.input type v = some cell ∧ P cell := by
  have hwrite : writeCell pg t row (slug, v) =
      (pg.input type v).elim (.error .unexpected) fun cell => .ok (Function.update row slug cell) := by
    unfold writeCell
    rw [hcolumn]
    cases v with
    | null => cases hv rfl
    | _ =>
      dsimp only [typedColumn]
      cases pg.input type _ <;> rfl
  rw [hwrite]
  cases pg.input type v <;> simp

/-- The numbers of a value that was parsed from a text are doubles. -/
def Doubles (v : Json) : Prop := ∀ q, .finite q ∈ v.numbers → JsNumber.ofDecimal q = .finite q

/-- A double is read back from what is printed for it. -/
def Storage.Prints (st : Storage) : Prop :=
  ∀ q, JsNumber.ofDecimal q = .finite q → JsNumber.ofDecimal (st.decimal q) = .finite q

theorem string_fits {s : String} :
    (∃ cell, st.input .varchar255 (.str s) = some cell ∧ cell.Denotes js (.str s)) ↔
      hasNul s = false ∧ s.length ≤ 255 := by
  cases hnul : hasNul s with
  | true => simp [Storage.input, hnul]
  | false =>
    cases hs : varchar255 s with
    | none =>
      have hlong : ¬ s.length ≤ 255 := by
        intro hle
        rw [varchar255, if_pos hle] at hs
        cases hs
      simp [Storage.input, hnul, hs, hlong]
    | some s' => simp [Storage.input, hnul, hs, Cell.Denotes, varchar255_eq_self hs]

theorem json_fits {v : Json} (hobj : checkFieldType js rule v = none)
    (hjson : rule.dataType = .JSON) (hnull : v ≠ .null) (hprints : st.Prints) (hv : Doubles v) :
    (∃ cell, st.input .jsonb v = some cell ∧ cell.Denotes js v) ↔ FitsColumn js st .JSON v := by
  cases v with
  | obj fields =>
    have hread := parseJson_stringify hprints hv
    cases hnul : (Json.obj fields).strings.any hasNul with
    | true => simp [Storage.input, Storage.jsonb, FitsColumn, hnul]
    | false => simp [Storage.input, Storage.jsonb, FitsColumn, hnul, Cell.Denotes, hread]
  | arr xs =>
    cases xs with
    | nil => simp [Storage.input, Storage.jsonb, FitsColumn, Cell.Denotes, parseJson, Json.mapNumbers]
    | cons x xs => simp [Storage.input, Storage.jsonb, FitsColumn]
  | null => cases hnull rfl
  | bool b | num n | str s => simp [checkFieldType, hjson] at hobj

theorem number_input_fits {n : JsNumber} (hprints : st.Prints) (hv : Doubles (.num n)) :
    (∃ cell, st.input .decimal (.num n) = some cell ∧ cell.Denotes js (.num n)) ↔
      FitsColumn js st .NUMBER (.num n) := by
  cases n with
  | finite q =>
    have hq : JsNumber.ofDecimal q = .finite q := hv q (by simp [Json.numbers])
    have hnumber := number_fits (hprints q hq)
    simpa [Storage.input, FitsColumn, Cell.Denotes] using hnumber
  | infinite negative =>
    have hnone : ¬ ∃ cents : ℤ, |cents| < 10 ^ 8 ∧
        JsNumber.ofDecimal ((cents : ℚ) / 100) = .infinite negative := by
      rintro ⟨cents, hc, hread⟩
      have hfinite := ofDecimal_cents_isFinite hc
      rw [hread] at hfinite
      cases hfinite
    simpa [Storage.input, FitsColumn] using hnone

theorem input_fits (rule : FieldValidationRule) {type : PgType} {v : Json}
    (htype : addTypedColumn rule.dataType = .ok type) (haccepted : checkFieldType js rule v = none)
    (hnull : v ≠ .null) (hprints : st.Prints) (hv : Doubles v) :
    (∃ cell, st.input type v = some cell ∧ cell.Denotes js v) ↔
      FitsColumn js st rule.dataType v := by
  cases hdata : rule.dataType with
  | STRING | EMAIL | URL | SELECT =>
    rw [hdata] at htype
    cases htype
    cases v with
    | str s => exact string_fits
    | _ => simp [checkFieldType, hdata] at haccepted
  | TEXT =>
    rw [hdata] at htype
    cases htype
    cases v with
    | str s => cases hnul : hasNul s <;> simp [Storage.input, FitsColumn, Cell.Denotes, hnul]
    | _ => simp [checkFieldType, hdata] at haccepted
  | NUMBER =>
    rw [hdata] at htype
    cases htype
    cases v with
    | num n => exact number_input_fits hprints hv
    | _ => simp [checkFieldType, hdata] at haccepted
  | BOOLEAN =>
    rw [hdata] at htype
    cases htype
    cases v with
    | bool b => simp [Storage.input, FitsColumn, Cell.Denotes]
    | _ => simp [checkFieldType, hdata] at haccepted
  | DATE | DATETIME =>
    rw [hdata] at htype
    cases htype
    cases v with
    | str s => simp [Storage.input, FitsColumn, Cell.Denotes]
    | _ => simp [checkFieldType, hdata] at haccepted
  | JSON =>
    rw [hdata] at htype
    cases htype
    exact json_fits haccepted hdata hnull hprints hv
  | RELATION =>
    rw [hdata] at htype
    cases htype

/-! ### Surrogates by themselves -/

/-- The cells in which a value has its texts. -/
def Cell.textual : Cell → Bool
  | .str _ | .json _ => true
  | _ => false

theorem readsAs_iff {cell : Cell} {v : JsonUnits} : cell.ReadsAs js v ↔
    cell.Denotes js v.toWellFormed ∧ (cell.textual = true → v.wellFormed = true) := by
  cases cell with
  | str s =>
    cases v <;> simp [Cell.ReadsAs, Cell.Denotes, Cell.textual, JsonUnits.toWellFormed,
      JsonUnits.wellFormed, textUnits_eq_iff, and_comm]
  | json text =>
    have hunits := Json.units_eq_iff (parseJson text) v
    cases v <;> simpa [Cell.ReadsAs, Cell.Denotes, Cell.textual, and_comm] using hunits
  | null | int i | num q | bool b | instant ms =>
    cases v <;> simp [Cell.ReadsAs, Cell.Denotes, Cell.textual, JsonUnits.toWellFormed]

def PgType.textual : PgType → Bool
  | .varchar255 | .text | .jsonb => true
  | _ => false

theorem input_textual {type : PgType} {v : Json} {cell : Cell} (h : st.input type v = some cell) :
    cell.textual = type.textual := by
  unfold Storage.input at h
  split at h
  · split at h
    · cases h
    · obtain ⟨-, -, rfl⟩ := Option.map_eq_some_iff.mp h
      rfl
  · split at h
    · cases h
    · cases h
      rfl
  · obtain ⟨-, -, rfl⟩ := Option.map_eq_some_iff.mp h
    rfl
  · cases h
    rfl
  · obtain ⟨-, -, rfl⟩ := Option.map_eq_some_iff.mp h
    rfl
  · obtain ⟨-, -, rfl⟩ := Option.map_eq_some_iff.mp h
    rfl
  · obtain ⟨-, -, rfl⟩ := Option.map_eq_some_iff.mp h
    rfl
  · cases h

theorem addTypedColumn_textual {dataType : FieldDataType} {type : PgType}
    (h : addTypedColumn dataType = .ok type) : type.textual = dataType.textual := by
  cases dataType <;> cases h <;> rfl

/-- A value that is not `null` is written and read back when the column takes its texts, and,
where it has texts, no surrogate stands by itself. -/
theorem write_reads {pg : Postgres} {t : PhysTable} {row : Row} {slug : String} {type : PgType}
    {required : Bool} {v : JsonUnits}
    (hcolumn : t.columns.lookup slug = some (typedColumn type required))
    (hv : v.toWellFormed ≠ .null) :
    (∃ row', st.write pg t row (slug, v) = .ok row' ∧ (row' slug).ReadsAs js v) ↔
      (∃ cell, st.input type v.toWellFormed = some cell ∧ cell.Denotes js v.toWellFormed) ∧
        (type.textual = true → v.wellFormed = true) := by
  have hreads : (∃ row', writeCell (st.postgres pg) t row (slug, v.toWellFormed) = .ok row' ∧
      (row' slug).ReadsAs js v) ↔ (∃ cell, st.input type v.toWellFormed = some cell ∧
        cell.Denotes js v.toWellFormed) ∧ (type.textual = true → v.wellFormed = true) := by
    refine (writeCell_input (P := fun cell => cell.ReadsAs js v) hcolumn hv).trans ?_
    rw [← exists_and_right]
    refine exists_congr fun cell => ?_
    rw [and_assoc]
    refine and_congr_right fun hcell => ?_
    rw [readsAs_iff, input_textual hcell]
  cases hrefused : ((t.columns.lookup slug).any fun d => d.type == .jsonb) && !v.wellFormed with
  | false =>
    have hwrite : st.write pg t row (slug, v) =
        writeCell (st.postgres pg) t row (slug, v.toWellFormed) := by
      rw [Storage.write, if_neg (by simp [hrefused])]
    rw [hwrite]
    exact hreads
  | true =>
    have hwrite : st.write pg t row (slug, v) = .error .unexpected := by
      rw [Storage.write, if_pos hrefused]
    rw [hcolumn, Option.any_some, Bool.and_eq_true, beq_iff_eq, Bool.not_eq_true'] at hrefused
    obtain ⟨htype, hill⟩ := hrefused
    have hjsonb : type.textual = true := by
      rw [show type = .jsonb from htype]
      rfl
    simp [hwrite, hjsonb, hill]

theorem toWellFormed_eq_null {v : JsonUnits} : v.toWellFormed = .null ↔ v = .null := by
  cases v <;> simp [JsonUnits.toWellFormed]

/-- An accepted value is written to the column of its field and read back unchanged exactly
when it is one of `Storable`. -/
theorem accepted_values_storable (pg : Postgres) (hprints : st.Prints) {f : MetaField}
    {type : PgType} (htype : addTypedColumn f.dataType = .ok type) {schema : TableValidationSchema}
    {key : String} (hrule : (key, fieldRule f) ∈ schema.fields) {data : List (String × JsonUnits)}
    {v : JsonUnits} (hv : data.find? (fun kv => kv.1 == f.slug) = some (f.slug, v))
    (hdoubles : Doubles v.toWellFormed) {isPartial : Bool}
    (haccepts : validateRowPayload js schema (checkedPayload data) isPartial = .ok ())
    {t : PhysTable} (hcolumn : t.columns.lookup f.slug = some (typedColumn type f.required))
    (row : Row) :
    (∃ row', st.write pg t row (f.slug, v) = .ok row' ∧ (row' f.slug).ReadsAs js v) ↔
      Storable js st f.dataType v := by
  have hfound : (checkedPayload data).find? (fun kv => kv.1 == f.slug) =
      some (f.slug, v.toWellFormed) := by
    have hkeys : ((fun kv : String × Json => kv.1 == f.slug) ∘
        fun kv : String × JsonUnits => (kv.1, kv.2.toWellFormed)) = fun kv => kv.1 == f.slug := rfl
    rw [checkedPayload, List.find?_map, hkeys, hv]
    rfl
  have hfield : v.toWellFormed = .null ∧ f.required = false ∨
      v.toWellFormed ≠ .null ∧ checkFieldType js (fieldRule f) v.toWellFormed = none :=
    validateRowPayload_field haccepts hrule hfound
  rcases hfield with ⟨hnull, hoptional⟩ | ⟨hnull, hchecked⟩
  · obtain rfl := toWellFormed_eq_null.mp hnull
    rw [hoptional] at hcolumn
    have hstorable : Storable js st f.dataType .null :=
      ⟨by simp [FitsColumn, JsonUnits.toWellFormed], fun _ => rfl⟩
    have hwrite : st.write pg t row (f.slug, .null) = .ok (Function.update row f.slug .null) := by
      rw [Storage.write, if_neg (by simp [JsonUnits.wellFormed])]
      exact writeCell_null hcolumn
    simp [hwrite, hstorable, Cell.ReadsAs]
  · have hfits : (∃ cell, st.input type v.toWellFormed = some cell ∧
        cell.Denotes js v.toWellFormed) ↔ FitsColumn js st f.dataType v.toWellFormed :=
      input_fits (fieldRule f) htype hchecked hnull hprints hdoubles
    rw [write_reads hcolumn hnull, hfits, addTypedColumn_textual htype]
    exact ⟨fun h => ⟨h.1, h.2⟩, fun h => ⟨h.fits, h.wellFormed⟩⟩

end

/-! ### A string of 256 characters -/

/-- Numbers print as they are, and only one text is a time. -/
def plainStorage : Storage where
  decimal q := q
  date text := if text = "1970-01-02" then some 1 else none
  timestamptz text := if text = "1970-01-02" then some 86400000 else none
  midnight day := 86400000 * day

def plainRuntime : JsRuntime where
  dateParse text := if text = "1970-01-02" then some 86400000 else none
  numberToString _ := "0"
  stringify _ := "[]"

def noCasts : Postgres where
  input _ _ := none
  hasAssignmentCast _ _ := false
  assignCast _ _ _ := none
  currentTimestamp := .instant 0

def titleField : MetaField where
  tableId := 0
  name := "title"
  slug := "title"
  dataType := .STRING
  required := true
  config := none
  relationTargetTableId := none

def titleTable : PhysTable where
  columns := AList.singleton "title" (typedColumn .varchar255 true)
  rows := []
  nextId := 1
  createdBy := none

theorem title_accepts (units : List UInt16) :
    validateRowPayload plainRuntime ⟨0, [("title", fieldRule titleField)]⟩
      (checkedPayload [("title", .str units)]) false = .ok () := by
  have hrule : fieldRule titleField = ⟨"title", .STRING, true, none, none, none, none, none, none⟩ :=
    rfl
  simp [hrule, checkedPayload, JsonUnits.toWellFormed, validateRowPayload, checkField,
    checkFieldType, checkFieldConstraints]

theorem title_column : titleTable.columns.lookup "title" = some (typedColumn .varchar255 true) :=
  List.dlookup_cons_eq [] "title" _

def invoiceTitle : JsonUnits := .str (textUnits "Invoice")

theorem short_title_storable :
    (∃ row', plainStorage.write noCasts titleTable (fun _ => .null) ("title", invoiceTitle) =
      .ok row' ∧ ( row' "title").ReadsAs plainRuntime invoiceTitle) ↔
      Storable plainRuntime plainStorage .STRING invoiceTitle := by
  have hprints : plainStorage.Prints := fun _ h => h
  have hrule : ("title", fieldRule titleField) ∈ [("title", fieldRule titleField)] :=
    List.mem_cons_self
  have hfind : [("title", invoiceTitle)].find? (fun kv => kv.1 == "title") =
      some ("title", invoiceTitle) := rfl
  have hdoubles : Doubles invoiceTitle.toWellFormed := by
    intro q hq
    cases hq
  have htype : addTypedColumn titleField.dataType = .ok .varchar255 := rfl
  exact accepted_values_storable noCasts hprints htype hrule hfind hdoubles
    (title_accepts _) title_column _

theorem varchar255_replicate {n : ℕ} (h : 255 < n) :
    varchar255 (String.ofList (List.replicate n 'a')) = none := by
  have hlen : (String.ofList (List.replicate n 'a')).length = n := by simp
  have hrest : ((String.ofList (List.replicate n 'a')).toList.drop 255).all (· = ' ') = false := by
    simp only [String.toList_ofList, List.drop_replicate, List.all_replicate]
    simp
    omega
  rw [varchar255, hlen, if_neg (by omega), hrest]
  rfl

/-- A string of 256 characters is accepted and refused by its column. -/
theorem long_title_refused :
    ∃ s : String, validateRowPayload plainRuntime ⟨0, [("title", fieldRule titleField)]⟩
        (checkedPayload [("title", .str (textUnits s))]) false = .ok () ∧
      ¬ ∃ row', plainStorage.write noCasts titleTable (fun _ => .null)
        ("title", .str (textUnits s)) = .ok row' ∧
          ( row' "title").ReadsAs plainRuntime (.str (textUnits s)) := by
  have hcut := varchar255_replicate (n := 256) (by omega)
  generalize String.ofList (List.replicate 256 'a') = s at hcut
  refine ⟨s, title_accepts _, ?_⟩
  rw [write_reads title_column (by simp [JsonUnits.toWellFormed])]
  rintro ⟨⟨cell, hcell, -⟩, -⟩
  have htext : (JsonUnits.str (textUnits s)).toWellFormed = .str s := by
    rw [JsonUnits.toWellFormed, ← (textUnits_eq_iff.mp rfl).2]
  have hnone : plainStorage.input .varchar255 (.str s) = none := by
    rw [Storage.input, hcut]
    split <;> rfl
  rw [htext, hnone] at hcell
  cases hcell

/-- A surrogate by itself is accepted as well, and not read back. -/
example : ¬ Storable plainRuntime plainStorage .STRING (.str [0xD800]) := by
  intro h
  cases h.wellFormed rfl

end DynamicTables

end Flexi
