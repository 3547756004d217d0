import Flexi.Library.Calendar

/-!
# Date texts

`Date.prototype.toISOString` and `Date.parse` on the Date Time String Format. A text of another
form is no date here.
-/

namespace Flexi.DateText
open Flexi.Library

def MS_PER_DAY : ℤ := 86400000

/-- The time values that a `Date` can have. -/
def timeClip (t : ℤ) : Option ℤ := if |t| ≤ 8640000000000000 then some t else none

/-- A time zone: how many minutes local time is ahead of UTC at an instant, and the instant of
a local time. Of two instants with one local time the earlier is taken. The offsets are
whole minutes, as they have been everywhere since 1972. -/
structure Zone where
  offset : ℤ → ℤ
  utc : ℤ → ℤ
  offset_lt : ∀ t, |offset t| < 1440
  utc_minutes : ∀ l, (60000 : ℤ) ∣ l - utc l
  utc_earliest : ∀ t, utc (t + 60000 * offset t) ≤ t ∧
    utc (t + 60000 * offset t) + 60000 * offset (utc (t + 60000 * offset t)) = t + 60000 * offset t

def Zone.localTime (zone : Zone) (t : ℤ) : ℤ := t + 60000 * zone.offset t

/-- No earlier instant has the local time of `t`. -/
def Zone.Earliest (zone : Zone) (t : ℤ) : Prop :=
  ∀ t', zone.localTime t' = zone.localTime t → t ≤ t'

/-! ### Writing -/

/-- Years of more than four digits have a sign and six. -/
def yearText (y : ℤ) : List Char :=
  if 0 ≤ y ∧ y ≤ 9999 then digits 4 y.toNat
  else (if y < 0 then '-' else '+') :: digits 6 y.natAbs

def dateText (date : CivilDate) : List Char :=
  yearText date.year ++ '-' :: (digits 2 date.month ++ '-' :: digits 2 date.day)

/-- Hours and minutes of a day's time in milliseconds. -/
def minuteText (ms : ℕ) : List Char := digits 2 (ms / 3600000) ++ ':' :: digits 2 (ms / 60000 % 60)

def secondText (ms : ℕ) : List Char :=
  ':' :: (digits 2 (ms / 1000 % 60) ++ '.' :: digits 3 (ms % 1000))

def dayTime (t : ℤ) : ℕ := (t % MS_PER_DAY).toNat

/-- `toISOString` of a valid date. -/
def isoText (t : ℤ) : List Char :=
  dateText (civilDate (t / MS_PER_DAY)) ++
    'T' :: (minuteText (dayTime t) ++ (secondText (dayTime t) ++ ['Z']))

def toISOString (t : ℤ) : String := String.ofList (isoText t)

/-! ### Reading -/

/-- What `read` makes of the text behind `c`; `default` when the text does not begin with it. -/
def behind (c : Char) (default : ℕ) (read : List Char → Option (ℕ × List Char)) :
    List Char → Option (ℕ × List Char)
  | [] => some (default, [])
  | d :: cs => if d = c then read cs else some (default, d :: cs)

/-- The text behind `c`. -/
def expect (c : Char) : List Char → Option (List Char)
  | [] => none
  | d :: cs => if d = c then some cs else none

def readYear : List Char → Option (ℤ × List Char)
  | [] => none
  | c :: cs =>
    if c = '+' then (readDigits 6 cs).map fun p => (p.1, p.2)
    else if c = '-' then (readDigits 6 cs).bind fun p => if p.1 = 0 then none else some (-p.1, p.2)
    else (readDigits 4 (c :: cs)).map fun p => (p.1, p.2)

/-- `YYYY`, `YYYY-MM` or `YYYY-MM-DD` -/
def readDate (cs : List Char) : Option (CivilDate × List Char) :=
  (readYear cs).bind fun year =>
    (behind '-' 1 (readDigits 2) year.2).bind fun month =>
      (behind '-' 1 (readDigits 2) month.2).bind fun day =>
        if 1 ≤ month.1 ∧ month.1 ≤ 12 ∧ 1 ≤ day.1 ∧ day.1 ≤ 31 then
          some (⟨year.1, month.1, day.1⟩, day.2)
        else none

/-- Seconds and their thousandths. -/
def readSeconds (cs : List Char) : Option (ℕ × List Char) :=
  (readDigits 2 cs).bind fun second =>
    (behind '.' 0 (readDigits 3) second.2).bind fun ms =>
      if second.1 < 60 then some (1000 * second.1 + ms.1, ms.2) else none

/-- `HH:mm`, `HH:mm:ss` or `HH:mm:ss.sss`, in milliseconds. -/
def readTime (cs : List Char) : Option (ℕ × List Char) :=
  (readDigits 2 cs).bind fun hour =>
    (expect ':' hour.2).bind fun cs =>
      (readDigits 2 cs).bind fun minute =>
        (behind ':' 0 readSeconds minute.2).bind fun second =>
          if hour.1 ≤ 24 ∧ minute.1 < 60 ∧ (hour.1 = 24 → minute.1 = 0 ∧ second.1 = 0) then
            some (3600000 * hour.1 + 60000 * minute.1 + second.1, second.2)
          else none

/-- An offset `HH:mm` from UTC in minutes. -/
def readOffset (cs : List Char) : Option ℕ :=
  (readDigits 2 cs).bind fun hour =>
    (expect ':' hour.2).bind fun cs =>
      (readDigits 2 cs).bind fun minute =>
        if minute.2 = [] ∧ hour.1 < 24 ∧ minute.1 < 60 then some (60 * hour.1 + minute.1) else none

/-- The instant of a date-time: local time unless the text says more. -/
def readZone (zone : Zone) (t : ℤ) : List Char → Option ℤ
  | [] => some (zone.utc t)
  | c :: cs =>
    if c = 'Z' then if cs = [] then some t else none
    else if c = '+' then (readOffset cs).map fun m => t - 60000 * m
    else if c = '-' then (readOffset cs).map fun m => t + 60000 * m
    else none

/-- `Date.parse`, none for `NaN`: a date alone is in UTC. -/
def parse (zone : Zone) (text : List Char) : Option ℤ :=
  (readDate text).bind fun date =>
    if date.2 = [] then timeClip (date.1.dayNumber * MS_PER_DAY)
    else (expect 'T' date.2).bind fun cs =>
      (readTime cs).bind fun time =>
        (readZone zone (date.1.dayNumber * MS_PER_DAY + time.1) time.2).bind timeClip

/-! ### Reading what was written -/

section

variable {zone : Zone} {c : Char} {cs rest : List Char} {t : ℤ}

theorem behind_cons (d : ℕ) (read : List Char → Option (ℕ × List Char)) :
    behind c d read (c :: cs) = read cs := if_pos rfl

theorem expect_cons : expect c (c :: cs) = some cs := if_pos rfl

theorem yearText_head {y : ℤ} (h : 0 ≤ y ∧ y ≤ 9999) :
    ∃ c cs, yearText y = c :: cs ∧ c.isDigit = true := by
  rw [yearText, if_pos h]
  cases htext : digits 4 y.toNat with
  | nil =>
    have hlength := digits_length 4 y.toNat
    rw [htext] at hlength
    cases hlength
  | cons c cs => exact ⟨c, cs, rfl, digits_isDigit (htext ▸ List.mem_cons_self)⟩

theorem readYear_yearText {y : ℤ} (hy : |y| < 1000000) :
    readYear (yearText y ++ rest) = some (y, rest) := by
  rw [abs_lt] at hy
  by_cases hfour : 0 ≤ y ∧ y ≤ 9999
  · obtain ⟨c, cs, htext, hdigit⟩ := yearText_head hfour
    have hread := readDigits_digits 4 y.toNat rest
    have hdigits : digits 4 y.toNat = yearText y := (if_pos hfour).symm
    have hplus : c ≠ '+' := by rintro rfl; cases hdigit
    have hminus : c ≠ '-' := by rintro rfl; cases hdigit
    rw [Nat.mod_eq_of_lt (by omega), hdigits, htext, List.cons_append] at hread
    rw [htext, List.cons_append, readYear, if_neg hplus, if_neg hminus, hread, Option.map_some,
      Int.toNat_of_nonneg hfour.1]
  · have hread := readDigits_digits 6 y.natAbs rest
    rw [Nat.mod_eq_of_lt (by omega)] at hread
    rw [yearText, if_neg hfour]
    by_cases hneg : y < 0
    · rw [if_pos hneg, List.cons_append, readYear, if_neg (by decide), if_pos rfl, hread,
        Option.bind_some, if_neg (by dsimp only; omega)]
      congr 2
      dsimp only
      omega
    · rw [if_neg hneg, List.cons_append, readYear, if_pos rfl, hread, Option.map_some]
      congr 2
      dsimp only
      omega

theorem readDate_dateText {date : CivilDate} (hyear : |date.year| < 1000000)
    (hvalid : (1 ≤ date.month ∧ date.month ≤ 12) ∧ 1 ≤ date.day ∧ date.day ≤ 31) :
    readDate (dateText date ++ rest) = some (date, rest) := by
  obtain ⟨hmonth, hday⟩ := hvalid
  have hm : date.month % 10 ^ 2 = date.month := Nat.mod_eq_of_lt (by omega)
  have hd : date.day % 10 ^ 2 = date.day := Nat.mod_eq_of_lt (by omega)
  rw [dateText, List.append_assoc, List.cons_append, List.append_assoc, List.cons_append, readDate,
    readYear_yearText hyear, Option.bind_some, behind_cons, readDigits_digits, Option.bind_some,
    behind_cons, readDigits_digits, Option.bind_some, hm, hd]
  dsimp only
  rw [if_pos ⟨hmonth.1, hmonth.2, hday.1, hday.2⟩]

theorem dayTime_lt (t : ℤ) : dayTime t < 86400000 := by
  unfold dayTime MS_PER_DAY
  omega

theorem day_add_dayTime (t : ℤ) : t / MS_PER_DAY * MS_PER_DAY + dayTime t = t := by
  unfold dayTime MS_PER_DAY
  omega

theorem year_lt (ht : |t| ≤ 8640000000000000) :
    |(civilDate (t / MS_PER_DAY)).year| < 1000000 := by
  have hvalid := marchDate_valid (t / MS_PER_DAY)
  have hday := marchDate_day (t / MS_PER_DAY)
  obtain ⟨hcentury, holympiad, hyear, hdayOfYear⟩ := hvalid
  rw [abs_le] at ht
  rw [abs_lt]
  unfold marchFirst at hday
  unfold MS_PER_DAY at *
  unfold civilDate MarchDate.civil MarchDate.fullYear
  dsimp only
  split <;> omega

theorem readMinute {ms : ℕ} (hms : ms < 86400000) :
    readDigits 2 (minuteText ms ++ rest) =
      some (ms / 3600000, ':' :: (digits 2 (ms / 60000 % 60) ++ rest)) ∧
    readDigits 2 (digits 2 (ms / 60000 % 60) ++ rest) = some (ms / 60000 % 60, rest) := by
  have hhour : ms / 3600000 % 10 ^ 2 = ms / 3600000 := Nat.mod_eq_of_lt (by omega)
  have hminute : ms / 60000 % 60 % 10 ^ 2 = ms / 60000 % 60 := Nat.mod_eq_of_lt (by omega)
  constructor
  · rw [minuteText, List.append_assoc, readDigits_digits, hhour, List.cons_append]
  · rw [readDigits_digits, hminute]

theorem readTime_minuteText {ms : ℕ} (hms : ms < 86400000) :
    readTime (minuteText ms) = some (60000 * (ms / 60000), []) := by
  obtain ⟨hhour, hminute⟩ := @readMinute [] ms hms
  simp only [List.append_nil] at hhour hminute
  rw [readTime, hhour, Option.bind_some, expect_cons, Option.bind_some, hminute, Option.bind_some,
    behind, Option.bind_some, if_pos (by dsimp only; omega)]
  congr 2
  dsimp only
  omega

theorem readTime_iso {ms : ℕ} (hms : ms < 86400000) :
    readTime (minuteText ms ++ (secondText ms ++ rest)) = some (ms, rest) := by
  obtain ⟨hhour, hminute⟩ := @readMinute (secondText ms ++ rest) ms hms
  have hsecond : readSeconds (digits 2 (ms / 1000 % 60) ++ '.' :: digits 3 (ms % 1000) ++ rest) =
      some (ms % 60000, rest) := by
    have hs : ms / 1000 % 60 % 10 ^ 2 = ms / 1000 % 60 := Nat.mod_eq_of_lt (by omega)
    have hm : ms % 1000 % 10 ^ 3 = ms % 1000 := Nat.mod_eq_of_lt (by omega)
    rw [List.append_assoc, List.cons_append, readSeconds, readDigits_digits, Option.bind_some,
      behind_cons, readDigits_digits, Option.bind_some, hs, hm, if_pos (by dsimp only; omega)]
    congr 2
    dsimp only
    omega
  have hbehind : behind ':' 0 readSeconds (secondText ms ++ rest) = some (ms % 60000, rest) := by
    rw [secondText, List.cons_append, behind_cons, hsecond]
  rw [readTime, hhour, Option.bind_some, expect_cons, Option.bind_some, hminute, Option.bind_some]
  dsimp only
  rw [hbehind, Option.bind_some, if_pos (by dsimp only; omega)]
  congr 2
  dsimp only
  omega

/-- `Date.parse` undoes `toISOString`. -/
theorem parse_isoText (ht : |t| ≤ 8640000000000000) : parse zone (isoText t) = some t := by
  rw [parse, isoText, readDate_dateText (year_lt ht) (civilDate_valid _), Option.bind_some]
  dsimp only
  rw [if_neg (List.cons_ne_nil _ _), expect_cons, Option.bind_some, readTime_iso (dayTime_lt t),
    Option.bind_some, dayNumber_civilDate]
  dsimp only
  rw [day_add_dayTime, readZone, if_pos rfl, if_pos rfl, Option.bind_some, timeClip, if_pos ht]

/-! ### The beginning of a text -/

/-- The year of an instant has four digits. -/
def FourDigits (t : ℤ) : Prop :=
  0 ≤ (civilDate (t / MS_PER_DAY)).year ∧ (civilDate (t / MS_PER_DAY)).year ≤ 9999

theorem FourDigits.bounded (h : FourDigits t) : |t| ≤ 400000000000000 := by
  have hday := marchDate_day (t / MS_PER_DAY)
  obtain ⟨hcentury, holympiad, hyear, hdayOfYear⟩ := marchDate_valid (t / MS_PER_DAY)
  unfold FourDigits civilDate MarchDate.civil MarchDate.fullYear at h
  unfold marchFirst at hday
  unfold MS_PER_DAY at *
  rw [abs_le]
  dsimp only at h
  split at h <;> omega

theorem FourDigits.valid (h : FourDigits t) : |t| ≤ 8640000000000000 :=
  h.bounded.trans (by norm_num)

theorem dateText_length {date : CivilDate} (h : 0 ≤ date.year ∧ date.year ≤ 9999) :
    (dateText date).length = 10 := by
  rw [dateText, yearText, if_pos h]
  simp only [List.length_append, List.length_cons, digits_length]

theorem dateText_length_far {date : CivilDate} (h : ¬(0 ≤ date.year ∧ date.year ≤ 9999)) :
    (dateText date).length = 13 := by
  rw [dateText, yearText, if_neg h]
  simp only [List.length_append, List.length_cons, digits_length]

theorem dateText_inj {n m : ℤ} (hn : 0 ≤ (civilDate n).year ∧ (civilDate n).year ≤ 9999)
    (h : dateText (civilDate n) = dateText (civilDate m)) : n = m := by
  have hm : 0 ≤ (civilDate m).year ∧ (civilDate m).year ≤ 9999 := by
    by_contra hfar
    have hlength := dateText_length_far hfar
    rw [← h, dateText_length hn] at hlength
    cases hlength
  have hread {k : ℤ} (hk : 0 ≤ (civilDate k).year ∧ (civilDate k).year ≤ 9999) :
      readDate (dateText (civilDate k) ++ []) = some (civilDate k, []) :=
    readDate_dateText (by rw [abs_lt]; omega) (civilDate_valid k)
  have hsame : some (civilDate n, ([] : List Char)) = some (civilDate m, []) := by
    rw [← hread hn, h, hread hm]
  have hdate : civilDate n = civilDate m := congrArg Prod.fst (Option.some.inj hsame)
  rw [← dayNumber_civilDate n, hdate, dayNumber_civilDate]

theorem minuteText_length (ms : ℕ) : (minuteText ms).length = 5 := by
  rw [minuteText]
  simp only [List.length_append, List.length_cons, digits_length]

theorem take_date (h : FourDigits t) :
    (isoText t).take 10 = dateText (civilDate (t / MS_PER_DAY)) :=
  List.take_left' (dateText_length h)

theorem take_minute (h : FourDigits t) : (isoText t).take 16 =
    dateText (civilDate (t / MS_PER_DAY)) ++ 'T' :: minuteText (dayTime t) := by
  have hlength : (dateText (civilDate (t / MS_PER_DAY)) ++ 'T' :: minuteText (dayTime t)).length =
      16 := by
    rw [List.length_append, List.length_cons, dateText_length h, minuteText_length]
  rw [isoText, ← List.cons_append, ← List.append_assoc]
  exact List.take_left' hlength

theorem parse_dateText (ht : |t| ≤ 8640000000000000) :
    parse zone (dateText (civilDate (t / MS_PER_DAY))) = some (t / MS_PER_DAY * MS_PER_DAY) := by
  have hread := @readDate_dateText [] _ (year_lt ht) (civilDate_valid _)
  rw [List.append_nil] at hread
  have hclip : |t / MS_PER_DAY * MS_PER_DAY| ≤ 8640000000000000 := by
    rw [abs_le] at ht ⊢
    unfold MS_PER_DAY
    omega
  rw [parse, hread, Option.bind_some, if_pos rfl, dayNumber_civilDate, timeClip, if_pos hclip]

theorem parse_minute (ht : |t| ≤ 8640000000000000) :
    parse zone (dateText (civilDate (t / MS_PER_DAY)) ++ 'T' :: minuteText (dayTime t)) =
      timeClip (zone.utc (t - t % 60000)) := by
  have hlocal : t / MS_PER_DAY * MS_PER_DAY + (60000 * (dayTime t / 60000) : ℕ) = t - t % 60000 := by
    have hday := day_add_dayTime t
    have hmod : (dayTime t : ℤ) % 60000 = t % 60000 := by
      unfold dayTime MS_PER_DAY
      omega
    push_cast
    omega
  rw [parse, readDate_dateText (year_lt ht) (civilDate_valid _), Option.bind_some]
  dsimp only
  rw [if_neg (List.cons_ne_nil _ _), expect_cons, Option.bind_some,
    readTime_minuteText (dayTime_lt t), Option.bind_some, dayNumber_civilDate]
  dsimp only
  rw [hlocal, readZone, Option.bind_some]

/-- A year of more digits leaves no room for the minutes. -/
theorem parse_far (ht : |t| ≤ 8640000000000000) (h : ¬FourDigits t) :
    parse zone ((isoText t).take 16) = none := by
  have hcut : (isoText t).take 16 = dateText (civilDate (t / MS_PER_DAY)) ++
      'T' :: digits 2 (dayTime t / 3600000) := by
    have hlength : (dateText (civilDate (t / MS_PER_DAY)) ++
        'T' :: digits 2 (dayTime t / 3600000)).length = 16 := by
      rw [List.length_append, List.length_cons, dateText_length_far h, digits_length]
    rw [isoText, minuteText, List.append_assoc, ← List.cons_append, ← List.append_assoc]
    exact List.take_left' hlength
  have hhour := readDigits_digits 2 (dayTime t / 3600000) []
  rw [List.append_nil] at hhour
  rw [hcut, parse, readDate_dateText (year_lt ht) (civilDate_valid _), Option.bind_some]
  dsimp only
  rw [if_neg (List.cons_ne_nil _ _), expect_cons, Option.bind_some, readTime, hhour,
    Option.bind_some]
  rfl

theorem take_far (h : ¬FourDigits t) (date : CivilDate) : (isoText t).take 10 ≠ dateText date := by
  intro heq
  have hlength : ((isoText t).take 10).length = 10 := by
    rw [List.length_take, isoText, List.length_append, dateText_length_far h]
    omega
  by_cases hdate : 0 ≤ date.year ∧ date.year ≤ 9999
  · obtain ⟨c, cs, hhead, hdigit⟩ := yearText_head hdate
    have hyear : ¬(0 ≤ (civilDate (t / MS_PER_DAY)).year ∧
      (civilDate (t / MS_PER_DAY)).year ≤ 9999) := h
    have hsign : c = '-' ∨ c = '+' := by
      rw [isoText, dateText, yearText, if_neg hyear, dateText, hhead] at heq
      have hc := (List.cons.inj heq).1
      split at hc
      · exact .inl hc.symm
      · exact .inr hc.symm
    rcases hsign with rfl | rfl <;> cases hdigit
  · rw [heq, dateText_length_far hdate] at hlength
    cases hlength

/-! ### Local time and back -/

theorem utc_localTime_iff : zone.utc (zone.localTime t) = t ↔ zone.Earliest t := by
  constructor
  · intro hutc t' hlocal
    obtain ⟨hle, -⟩ := zone.utc_earliest t'
    have hsame : t' + 60000 * zone.offset t' = zone.localTime t := hlocal
    rwa [hsame, hutc] at hle
  · intro hearliest
    obtain ⟨hle, hlocal⟩ := zone.utc_earliest t
    exact le_antisymm hle (hearliest _ hlocal)

/-- A local time without its seconds names the instant it was taken from. -/
theorem utc_minute_iff : zone.utc (zone.localTime t - zone.localTime t % 60000) = t ↔
    t % 60000 = 0 ∧ zone.Earliest t := by
  have hmod : zone.localTime t % 60000 = t % 60000 := by
    unfold Zone.localTime
    omega
  have hminutes := zone.utc_minutes (zone.localTime t - zone.localTime t % 60000)
  constructor
  · intro hutc
    have hzero : t % 60000 = 0 := by
      rw [hutc] at hminutes
      omega
    rw [hmod, hzero, sub_zero] at hutc
    exact ⟨hzero, utc_localTime_iff.mp hutc⟩
  · rintro ⟨hzero, hearliest⟩
    rw [hmod, hzero, sub_zero]
    exact utc_localTime_iff.mpr hearliest

/-- Local time is less than a day from UTC. -/
theorem valid_of_localTime (h : FourDigits (zone.localTime t)) : |t| ≤ 8640000000000000 := by
  have hlocal := abs_le.mp h.bounded
  have hoffset := abs_lt.mp (zone.offset_lt t)
  unfold Zone.localTime at hlocal
  rw [abs_le]
  omega

end

end Flexi.DateText
