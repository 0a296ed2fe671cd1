/-
Calendar days and their texts.

A day is counted from 1970-01-01, as `floor(ms / 86 400 000)` does for an instant.

* `CivilDate.toDay`, `civilDate` — the day of a date of the Gregorian calendar, and the date of
  a day;
* `dateString`, `parseDate?` — `YYYY-MM-DD` written and read;
* `parseDate?_dateString` — the text of a day reads back as that day.
-/
import LogStack.JsValue
import Mathlib.Data.Nat.Find

namespace Calendar

def DAY_MS : ℤ := 86400000

/-- The UTC day of an instant in milliseconds. -/
def utcDay (ms : ℤ) : ℤ := ms / DAY_MS

structure CivilDate where
  year : ℕ
  month : ℕ
  day : ℕ

/-- The days from 1970 to the year `1970 + k`. -/
def daysBeforeYear (k : ℕ) : ℕ := 365 * k + (k + 1) / 4 + (k + 369) / 400 - (k + 69) / 100

def isLeapYear (year : ℕ) : Bool := year % 4 = 0 && (year % 100 ≠ 0 || year % 400 = 0)

/-- The days of a year before its month `m`, counted from 0. -/
def daysBeforeMonth (leap : Bool) (m : ℕ) : ℕ :=
  [0, 31, 59, 90, 120, 151, 181, 212, 243, 273, 304, 334].getD m 365
    + if leap && 2 ≤ m then 1 else 0

/-- The day of a date from 1970 on; a day that its month does not have runs into the next. -/
def CivilDate.toDay (date : CivilDate) : ℕ :=
  daysBeforeYear (date.year - 1970)
    + daysBeforeMonth (isLeapYear date.year) (date.month - 1) + (date.day - 1)

/-- The years that have begun since 1970. -/
def yearsOfDay (n : ℕ) : ℕ := Nat.findGreatest (fun k => daysBeforeYear k ≤ n) (n / 365)

/-- The months that have begun by day `r` of a year, counted from 0. -/
def monthsOfDay (leap : Bool) (r : ℕ) : ℕ :=
  Nat.findGreatest (fun m => daysBeforeMonth leap m ≤ r) 11

def civilDate (n : ℕ) : CivilDate :=
  let k := yearsOfDay n
  let r := n - daysBeforeYear k
  let m := monthsOfDay (isLeapYear (1970 + k)) r
  ⟨1970 + k, m + 1, r - daysBeforeMonth (isLeapYear (1970 + k)) m + 1⟩

/-! ### Years and months -/

theorem daysBeforeYear_succ (k : ℕ) : daysBeforeYear (k + 1)
    = daysBeforeYear k + 365 + if isLeapYear (1970 + k) then 1 else 0 := by
  -- the multiples of 4, 100 and 400 up to the next year, one by one
  have hfour : (k + 1 + 1) / 4 = (k + 1) / 4 + if (1970 + k) % 4 = 0 then 1 else 0 := by
    split_ifs <;> omega
  have hhundred : (k + 1 + 69) / 100 = (k + 69) / 100 + if (1970 + k) % 100 = 0 then 1 else 0 := by
    split_ifs <;> omega
  have hfourHundred : (k + 1 + 369) / 400
      = (k + 369) / 400 + if (1970 + k) % 400 = 0 then 1 else 0 := by
    split_ifs <;> omega
  have hdvd : (1970 + k) % 100 = 0 → (1970 + k) % 4 = 0 := by omega
  have hdvd' : (1970 + k) % 400 = 0 → (1970 + k) % 100 = 0 := by omega
  have hle : (k + 69) / 100 ≤ 365 * k + (k + 1) / 4 := by omega
  simp only [daysBeforeYear, isLeapYear, hfour, hhundred, hfourHundred, Bool.and_eq_true,
    Bool.or_eq_true, decide_eq_true_iff]
  clear hfour hhundred hfourHundred
  generalize (k + 1) / 4 = fours, (k + 69) / 100 = hundreds, (k + 369) / 400 = fourHundreds
    at hle ⊢
  by_cases h : (1970 + k) % 4 = 0
  · by_cases h' : (1970 + k) % 100 = 0
    · by_cases h'' : (1970 + k) % 400 = 0
      · simp only [h, h', h'', ne_eq, not_true_eq_false, or_true, and_true, if_true]
        omega
      · simp only [h, h', h'', ne_eq, not_true_eq_false, or_self, and_false, if_true, if_false]
        omega
    · have h'' : (1970 + k) % 400 ≠ 0 := mt hdvd' h'
      simp only [h, h', h'', ne_eq, not_false_eq_true, true_or, and_true, if_true, if_false]
      omega
  · have h' : (1970 + k) % 100 ≠ 0 := mt hdvd h
    have h'' : (1970 + k) % 400 ≠ 0 := mt hdvd' h'
    simp only [h, h', h'', false_and, if_false]
    omega

theorem le_daysBeforeYear (k : ℕ) : 365 * k ≤ daysBeforeYear k := by
  rw [daysBeforeYear]
  omega

theorem daysBeforeYear_yearsOfDay (n : ℕ) : daysBeforeYear (yearsOfDay n) ≤ n :=
  Nat.findGreatest_spec (P := fun k => daysBeforeYear k ≤ n) (Nat.zero_le _) (Nat.zero_le n)

/-- The next year has not begun. -/
theorem lt_daysBeforeYear_succ (n : ℕ) : n < daysBeforeYear (yearsOfDay n + 1) := by
  by_contra h
  have hle := not_lt.mp h
  have hbound : yearsOfDay n + 1 ≤ n / 365 := by
    have := le_daysBeforeYear (yearsOfDay n + 1)
    omega
  have hgreatest : yearsOfDay n + 1 ≤ yearsOfDay n :=
    Nat.le_findGreatest (P := fun k => daysBeforeYear k ≤ n) hbound hle
  omega

theorem daysBeforeMonth_monthsOfDay (leap : Bool) (r : ℕ) :
    daysBeforeMonth leap (monthsOfDay leap r) ≤ r :=
  Nat.findGreatest_spec (P := fun m => daysBeforeMonth leap m ≤ r) (Nat.zero_le _)
    (by cases leap <;> exact Nat.zero_le r)

theorem monthsOfDay_le (leap : Bool) (r : ℕ) : monthsOfDay leap r ≤ 11 := Nat.findGreatest_le _

/-- The next month has not begun. -/
theorem lt_daysBeforeMonth_succ (leap : Bool) {r : ℕ} (hr : r < 365 + if leap then 1 else 0) :
    r < daysBeforeMonth leap (monthsOfDay leap r + 1) := by
  have hlast : daysBeforeMonth leap 12 = 365 + if leap then 1 else 0 := by
    cases leap <;> rfl
  by_contra h
  rcases (monthsOfDay_le leap r).lt_or_eq with hlt | heq
  · have hgreatest : monthsOfDay leap r + 1 ≤ monthsOfDay leap r :=
      Nat.le_findGreatest (P := fun m => daysBeforeMonth leap m ≤ r) hlt (not_lt.mp h)
    omega
  · rw [heq, hlast] at h
    exact h hr

/-- No month has more than 31 days. -/
theorem day_le (leap : Bool) {r : ℕ} (hr : r < 365 + if leap then 1 else 0) :
    r - daysBeforeMonth leap (monthsOfDay leap r) ≤ 30 := by
  have hlength : ∀ m ≤ 11, daysBeforeMonth leap (m + 1) ≤ daysBeforeMonth leap m + 31 := by
    cases leap <;> decide
  have hnext := lt_daysBeforeMonth_succ leap hr
  have hday := hlength _ (monthsOfDay_le leap r)
  omega

/-- A day is one of its year. -/
theorem sub_daysBeforeYear_lt (n : ℕ) : n - daysBeforeYear (yearsOfDay n) <
    365 + if isLeapYear (1970 + yearsOfDay n) then 1 else 0 := by
  have hlt := lt_daysBeforeYear_succ n
  rw [daysBeforeYear_succ] at hlt
  omega

/-- The date of a day is a date of its calendar. -/
theorem toDay_civilDate (n : ℕ) : (civilDate n).toDay = n := by
  have hyear := daysBeforeYear_yearsOfDay n
  have hmonth := daysBeforeMonth_monthsOfDay (isLeapYear (1970 + yearsOfDay n))
    (n - daysBeforeYear (yearsOfDay n))
  simp only [civilDate, CivilDate.toDay, Nat.add_sub_cancel_left, Nat.add_sub_cancel]
  omega

/-! ### Texts -/

/-- The last day that is supported: 9999-12-31. -/
def MAX_DAY : ℕ := 2932896

def digits (n : ℕ) : JsString := [(0x30 + n / 10 % 10).toUInt16, (0x30 + n % 10).toUInt16]

/-- `toISOString().slice(0, 10)` of the midnight of a day up to the year 9999. -/
def dateString (n : ℕ) : JsString :=
  let date := civilDate n
  digits (date.year / 100) ++ digits date.year ++ [0x2d] ++ digits date.month ++ [0x2d]
    ++ digits date.day

/-- The value of two digits. -/
def number? (u v : UInt16) : Option ℕ :=
  if 0x30 ≤ u ∧ u ≤ 0x39 ∧ 0x30 ≤ v ∧ v ≤ 0x39 then
    some (10 * (u.toNat - 0x30) + (v.toNat - 0x30))
  else none

/-- The date that `YYYY-MM-DD` names: the day of the month may be any up to 31. -/
def readDate? : JsString → Option CivilDate
  | [c₁, c₂, y₁, y₂, h₁, m₁, m₂, h₂, d₁, d₂] => do
    let century ← number? c₁ c₂
    let year ← number? y₁ y₂
    let month ← number? m₁ m₂
    let day ← number? d₁ d₂
    if h₁ = 0x2d ∧ h₂ = 0x2d ∧ 1 ≤ month ∧ month ≤ 12 ∧ 1 ≤ day ∧ day ≤ 31 then
      some ⟨100 * century + year, month, day⟩
    else none
  | _ => none

/-- The day of a text, when it is a day from 1970 to 9999 and this is its text. -/
def parseDate? (value : JsString) : Option ℕ := do
  let date ← readDate? value
  if 1970 ≤ date.year ∧ date.toDay ≤ MAX_DAY ∧ dateString date.toDay = value then
    some date.toDay
  else none

/-- The day that a date text names; texts that name none have been refused before. -/
def toEpochDay (value : JsString) : ℤ := ((readDate? value).map CivilDate.toDay).getD 0

/-- `toDateString` of a day. -/
def toDateString (day : ℤ) : JsString := dateString day.toNat

theorem parseDate?_eq_some {value : JsString} {n : ℕ} (h : parseDate? value = some n) :
    dateString n = value ∧ n ≤ MAX_DAY ∧ toEpochDay value = n := by
  obtain ⟨date, hread, h⟩ := Option.bind_eq_some_iff.mp h
  split_ifs at h with hdate
  obtain rfl := Option.some.inj h
  exact ⟨hdate.2.2, hdate.2.1, by rw [toEpochDay, hread]; rfl⟩

theorem toUInt16_digit {n : ℕ} (h : n < 10) :
    0x30 ≤ (0x30 + n).toUInt16 ∧ (0x30 + n).toUInt16 ≤ 0x39 ∧
      (0x30 + n).toUInt16.toNat - 0x30 = n := by
  have hall : ∀ n < 10, 0x30 ≤ (0x30 + n).toUInt16 ∧ (0x30 + n).toUInt16 ≤ 0x39 ∧
      (0x30 + n).toUInt16.toNat - 0x30 = n := by decide
  exact hall n h

theorem number?_digits (n : ℕ) :
    number? (0x30 + n / 10 % 10).toUInt16 (0x30 + n % 10).toUInt16 = some (n % 100) := by
  obtain ⟨htens, htens', htens''⟩ := toUInt16_digit (Nat.mod_lt (n / 10) (by decide))
  obtain ⟨hones, hones', hones''⟩ := toUInt16_digit (Nat.mod_lt n (by decide : 0 < 10))
  rw [number?, if_pos ⟨htens, htens', hones, hones'⟩, htens'', hones'']
  congr 1
  omega

theorem year_le {n : ℕ} (h : n ≤ MAX_DAY) : (civilDate n).year ≤ 9999 := by
  have hyear := daysBeforeYear_yearsOfDay n
  have hbound := le_daysBeforeYear (yearsOfDay n)
  have hall : daysBeforeYear 8030 = MAX_DAY + 1 := by decide
  show 1970 + yearsOfDay n ≤ 9999
  by_contra hlt
  have hmono : daysBeforeYear 8030 ≤ daysBeforeYear (yearsOfDay n) := by
    simp only [daysBeforeYear]
    omega
  omega

theorem readDate?_dateString {n : ℕ} (h : n ≤ MAX_DAY) :
    readDate? (dateString n) = some (civilDate n) := by
  have hyear := year_le h
  have hmonth := monthsOfDay_le (isLeapYear (1970 + yearsOfDay n))
    (n - daysBeforeYear (yearsOfDay n))
  have hday := day_le _ (sub_daysBeforeYear_lt n)
  have hmonth' : 1 ≤ (civilDate n).month ∧ (civilDate n).month ≤ 12 :=
    ⟨Nat.succ_pos _, Nat.succ_le_succ hmonth⟩
  have hday' : 1 ≤ (civilDate n).day ∧ (civilDate n).day ≤ 31 :=
    ⟨Nat.succ_pos _, Nat.succ_le_succ hday⟩
  show (number? _ _).bind _ = _
  generalize civilDate n = date at hyear hmonth' hday'
  simp only [number?_digits, Option.bind_eq_bind, Option.bind_some]
  rw [Nat.mod_eq_of_lt (show date.month < 100 by omega),
    Nat.mod_eq_of_lt (show date.day < 100 by omega),
    if_pos ⟨trivial, trivial, hmonth'.1, hmonth'.2, hday'.1, hday'.2⟩]
  congr 2
  omega

/-- **The text of a day reads back.** -/
theorem parseDate?_dateString {n : ℕ} (h : n ≤ MAX_DAY) : parseDate? (dateString n) = some n := by
  rw [parseDate?, readDate?_dateString h, Option.bind_eq_bind, Option.bind_some,
    toDay_civilDate, if_pos ⟨Nat.le_add_right _ _, h, rfl⟩]

theorem dateString_inj {m n : ℕ} (hm : m ≤ MAX_DAY) (hn : n ≤ MAX_DAY)
    (h : dateString m = dateString n) : m = n := by
  have hparse := parseDate?_dateString hm
  rw [h, parseDate?_dateString hn] at hparse
  exact (Option.some.inj hparse).symm

/-- Days of the supported range have different texts. -/
theorem toDateString_inj {d d' : ℤ} (hd : 0 ≤ d ∧ d ≤ MAX_DAY) (hd' : 0 ≤ d' ∧ d' ≤ MAX_DAY)
    (h : toDateString d = toDateString d') : d = d' := by
  have hnat := dateString_inj (by omega) (by omega) h
  omega

example : parseDate? (js "2024-02-29") = some 19782 := by decide +kernel

example : parseDate? (js "2026-02-30") = none := by decide +kernel

end Calendar
