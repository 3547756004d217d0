import Mathlib.Tactic

/-!
# Days and civil dates

The proleptic Gregorian calendar on day numbers, with 1970-01-01 as day 0, and numbers written
in a fixed count of decimal digits.
-/

namespace Flexi.Library

structure CivilDate where
  year : ℤ
  month : ℕ
  day : ℕ
  deriving DecidableEq

def isLeapYear (y : ℤ) : Bool := y % 4 = 0 ∧ (y % 100 ≠ 0 ∨ y % 400 = 0)

def dayFromYear (y : ℤ) : ℤ :=
  365 * (y - 1970) + (y - 1969) / 4 - (y - 1901) / 100 + (y - 1601) / 400

/-- The days of a year before its `m`th month. -/
def daysBefore (leap : Bool) (m : ℕ) : ℤ :=
  [0, 31, 59, 90, 120, 151, 181, 212, 243, 273, 304, 334].getD (m - 1) 0 +
    if leap ∧ 2 < m then 1 else 0

def CivilDate.dayNumber (date : CivilDate) : ℤ :=
  dayFromYear date.year + daysBefore (isLeapYear date.year) date.month + date.day - 1

/-! ### The date of a day -/

/-- A day in years that begin on the first of March: 400 years are an `era`, and the leap day is
the last of its year. -/
structure MarchDate where
  era : ℤ
  century : ℤ
  olympiad : ℤ
  year : ℤ
  dayOfYear : ℤ

def marchDate (n : ℤ) : MarchDate :=
  let dayOfEra := (n + 719468) % 146097
  let century := min (dayOfEra / 36524) 3
  let dayOfCentury := dayOfEra - 36524 * century
  let olympiad := dayOfCentury / 1461
  let dayOfOlympiad := dayOfCentury - 1461 * olympiad
  let year := min (dayOfOlympiad / 365) 3
  { era := (n + 719468) / 146097, century := century, olympiad := olympiad, year := year
    dayOfYear := dayOfOlympiad - 365 * year }

namespace MarchDate

variable (d : MarchDate)

def fullYear : ℤ := 400 * d.era + 100 * d.century + 4 * d.olympiad + d.year

/-- Months since March. -/
def month : ℤ := (5 * d.dayOfYear + 2) / 153

def civil : CivilDate where
  year := d.fullYear + if d.month < 10 then 0 else 1
  month := (if d.month < 10 then d.month + 3 else d.month - 9).toNat
  day := (d.dayOfYear - (153 * d.month + 2) / 5 + 1).toNat

/-- The ranges of the parts. -/
structure Valid : Prop where
  century : 0 ≤ d.century ∧ d.century ≤ 3
  olympiad : 0 ≤ d.olympiad ∧ d.olympiad ≤ 24
  year : 0 ≤ d.year ∧ d.year ≤ 3
  dayOfYear : 0 ≤ d.dayOfYear ∧ d.dayOfYear ≤ 365

end MarchDate

def civilDate (n : ℤ) : CivilDate := (marchDate n).civil

section Civil

variable {d : MarchDate}

theorem marchDate_valid (n : ℤ) : (marchDate n).Valid := by
  have hera : 0 ≤ (n + 719468) % 146097 ∧ (n + 719468) % 146097 ≤ 146096 := by omega
  unfold marchDate
  generalize (n + 719468) % 146097 = dayOfEra at hera
  constructor <;> dsimp only <;> omega

def marchFirst (d : MarchDate) : ℤ :=
  146097 * d.era + 36524 * d.century + 1461 * d.olympiad + 365 * d.year - 719468

theorem marchDate_day (n : ℤ) :
    marchFirst (marchDate n) + (marchDate n).dayOfYear = n := by
  unfold marchFirst marchDate
  dsimp only
  omega

theorem dayFromYear_march (h : d.Valid) :
    dayFromYear d.fullYear + 59 + (if isLeapYear d.fullYear then 1 else 0) = marchFirst d := by
  obtain ⟨hcentury, holympiad, hyear, -⟩ := h
  have hleap : isLeapYear d.fullYear = true ↔ d.year = 0 ∧ (d.olympiad ≠ 0 ∨ d.century = 0) := by
    unfold isLeapYear MarchDate.fullYear
    rw [decide_eq_true_eq]
    omega
  unfold dayFromYear marchFirst
  split
  · rename_i hy
    have hparts := hleap.mp hy
    unfold MarchDate.fullYear
    omega
  · rename_i hy
    have hparts : ¬(d.year = 0 ∧ (d.olympiad ≠ 0 ∨ d.century = 0)) := fun h => hy (hleap.mpr h)
    unfold MarchDate.fullYear
    omega

/-- January and February belong to the year that follows. -/
theorem dayFromYear_january (h : d.Valid) : dayFromYear (d.fullYear + 1) = marchFirst d + 306 := by
  obtain ⟨hcentury, holympiad, hyear, -⟩ := h
  unfold dayFromYear marchFirst MarchDate.fullYear
  omega

theorem MarchDate.Valid.month (h : d.Valid) : 0 ≤ d.month ∧ d.month ≤ 11 := by
  have hday := h.dayOfYear
  unfold MarchDate.month
  omega

theorem MarchDate.Valid.civil (h : d.Valid) :
    (1 ≤ d.civil.month ∧ d.civil.month ≤ 12) ∧ 1 ≤ d.civil.day ∧ d.civil.day ≤ 31 := by
  have hday := h.dayOfYear
  have hmonth := h.month
  constructor
  · unfold MarchDate.civil
    dsimp only
    split <;> omega
  · unfold MarchDate.civil MarchDate.month
    dsimp only
    omega

theorem civil_dayNumber (h : d.Valid) : d.civil.dayNumber = marchFirst d + d.dayOfYear := by
  have hday := h.dayOfYear
  have hmonth := h.month
  have hstart : (d.dayOfYear - (153 * d.month + 2) / 5 + 1).toNat =
      d.dayOfYear - (153 * d.month + 2) / 5 + 1 := by
    unfold MarchDate.month
    omega
  have hmarch := dayFromYear_march h
  have hjanuary := dayFromYear_january h
  unfold CivilDate.dayNumber MarchDate.civil
  dsimp only
  rw [hstart]
  generalize d.month = m at hmonth
  obtain ⟨hlow, hhigh⟩ := hmonth
  interval_cases m <;> simp [daysBefore] at * <;> omega

theorem dayNumber_civilDate (n : ℤ) : (civilDate n).dayNumber = n :=
  (civil_dayNumber (marchDate_valid n)).trans (marchDate_day n)

theorem civilDate_valid (n : ℤ) :
    (1 ≤ (civilDate n).month ∧ (civilDate n).month ≤ 12) ∧
      1 ≤ (civilDate n).day ∧ (civilDate n).day ≤ 31 :=
  (marchDate_valid n).civil

end Civil

/-! ### Numbers of a fixed width -/

/-- The last `k` decimal digits of a number. -/
def digits : ℕ → ℕ → List Char
  | 0, _ => []
  | k + 1, n => digits k (n / 10) ++ [Nat.digitChar (n % 10)]

def digitValue (c : Char) : Option ℕ := if c.isDigit then some (c.toNat - 48) else none

/-- The number that the first `k` characters write, and the text behind them. -/
def readDigits : ℕ → List Char → Option (ℕ × List Char)
  | 0, cs => some (0, cs)
  | k + 1, cs => (readDigits k cs).bind fun p =>
    match p.2 with
    | [] => none
    | c :: rest => (digitValue c).map fun d => (10 * p.1 + d, rest)

theorem digits_length (k n : ℕ) : (digits k n).length = k := by
  induction k generalizing n with
  | zero => rfl
  | succ k ih => rw [digits, List.length_append, ih, List.length_singleton]

theorem digitValue_digitChar {d : ℕ} (h : d < 10) : digitValue (Nat.digitChar d) = some d := by
  interval_cases d <;> rfl

theorem digits_isDigit {k n : ℕ} {c : Char} (hc : c ∈ digits k n) : c.isDigit = true := by
  induction k generalizing n with
  | zero => cases hc
  | succ k ih =>
    rcases List.mem_append.mp hc with hc | hc
    · exact ih hc
    · rw [List.mem_singleton.mp hc]
      have hd : n % 10 < 10 := Nat.mod_lt n (by decide)
      generalize n % 10 = d at hd
      interval_cases d <;> rfl

/-- What is written with `k` digits is read back, whatever follows. -/
theorem readDigits_digits (k n : ℕ) (rest : List Char) :
    readDigits k (digits k n ++ rest) = some (n % 10 ^ k, rest) := by
  induction k generalizing n rest with
  | zero => rw [digits, List.nil_append, readDigits, Nat.pow_zero, Nat.mod_one]
  | succ k ih =>
    have hlast : n % 10 ^ (k + 1) = 10 * (n / 10 % 10 ^ k) + n % 10 := by
      rw [Nat.pow_succ', Nat.mod_mul, Nat.add_comm]
    rw [digits, List.append_assoc, readDigits, ih, Option.bind_some, hlast]
    dsimp only [List.singleton_append]
    rw [digitValue_digitChar (Nat.mod_lt n (by decide))]
    rfl

end Flexi.Library
