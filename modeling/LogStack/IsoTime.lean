/-
Instants and their texts.

* `isoInstant` — the instant that a text of ISO 8601 denotes: a date of the calendar, of the year
  or of its weeks, a time down to its last unit, which may have a decimal fraction, and an offset
  from UTC, each with or without its separators;
* `toISOString` — the text that `Date` writes, from 1970 to 9999;
* `isoInstant_toISOString` — it reads back.
-/
import LogStack.Calendar
import LogStack.JsText

open JsString (isDigit isWhiteSpace digitValue ofDigits)

namespace Calendar

/-! ### Reading -/

/-- A number of two digits, and what follows. -/
def twoDigits? : JsString → Option (ℕ × JsString)
  | u :: v :: rest => (number? u v).map fun n => (n, rest)
  | _ => none

/-- What follows a separator that may be missing. -/
def skip (separator : UInt16) : JsString → JsString
  | [] => []
  | u :: rest => if u = separator then rest else u :: rest

def fourDigits? (s : JsString) : Option (ℤ × JsString) := do
  let (century, s) ← twoDigits? s
  let (year, s) ← twoDigits? s
  some (100 * century + year, s)

/-- A year, perhaps with a sign. -/
def year? : JsString → Option (ℤ × JsString)
  | [] => none
  | u :: s =>
    if u = 0x2b then fourDigits? s
    else if u = 0x2d then (fourDigits? s).map fun (year, s) => (-year, s)
    else fourDigits? (u :: s)

/-- The day on which a year begins, also before 1970. -/
def yearStart (year : ℤ) : ℤ :=
  365 * year + (year + 3) / 4 + (year + 399) / 400 - (year + 99) / 100 - 719528

/-- `YYYY-MM-DD` or `YYYYMMDD`. -/
def calendarDay? (s : JsString) : Option (ℤ × JsString) := do
  let (year, s) ← year? s
  let (month, s) ← twoDigits? (skip 0x2d s)
  let (day, s) ← twoDigits? (skip 0x2d s)
  let before := daysBeforeMonth (isLeapYear year.natAbs) (month - 1)
  let next := daysBeforeMonth (isLeapYear year.natAbs) month
  if (1 ≤ month ∧ month ≤ 12) ∧ 1 ≤ day ∧ before + day ≤ next then
    some (yearStart year + before + (day - 1), s)
  else none

/-- `YYYY-DDD` or `YYYYDDD`. -/
def ordinalDay? (s : JsString) : Option (ℤ × JsString) := do
  let (year, s) ← year? s
  match skip 0x2d s with
  | u :: s =>
    let hundreds ← number? 0x30 u
    let (rest, s) ← twoDigits? s
    let day := 100 * hundreds + rest
    if 1 ≤ day ∧ day ≤ daysBeforeMonth (isLeapYear year.natAbs) 12 then
      some (yearStart year + (day - 1), s)
    else none
  | [] => none

/-- The Monday of the week with the fourth of January. -/
def firstMonday (year : ℤ) : ℤ := yearStart year + 3 - (yearStart year + 3 + 3) % 7

/-- `YYYY-Www-D` or `YYYYWwwD`. -/
def weekDay? (s : JsString) : Option (ℤ × JsString) := do
  let (year, s) ← year? s
  match skip 0x2d s with
  | 0x57 :: s =>
    let (week, s) ← twoDigits? s
    match skip 0x2d s with
    | u :: s =>
      let day ← number? 0x30 u
      let monday := firstMonday year + 7 * (week - 1)
      if (1 ≤ week ∧ monday < firstMonday (year + 1)) ∧ 1 ≤ day ∧ day ≤ 7 then
        some (monday + (day - 1), s)
      else none
    | [] => none
  | _ => none

/-- A decimal fraction, and what follows. -/
def fraction? : JsString → Option (ℚ × JsString)
  | [] => none
  | u :: rest =>
    let ds := rest.takeWhile isDigit
    if (u = 0x2e ∨ u = 0x2c) ∧ ds ≠ [] then
      some (ofDigits 10 digitValue ds / 10 ^ ds.length, rest.dropWhile isDigit)
    else none

/-- The seconds of a time, and what follows: each unit has a length in seconds and a greatest
number. Smaller units may be left out, and a fraction is one of the smallest that is there. -/
def clock? : List (ℕ × ℕ) → JsString → Option (ℚ × JsString)
  | [], s => some (0, s)
  | (unit, greatest) :: units, s =>
    match twoDigits? s with
    | none => some (0, s)
    | some (n, rest) =>
      if greatest < n then none
      else match fraction? rest with
        | some (fraction, rest) => some (unit * (n + fraction), rest)
        | none => (clock? units (skip 0x3a rest)).map fun (smaller, rest) =>
            (unit * n + smaller, rest)

/-- A time of day; 24:00 is the end of the day. -/
def timeOfDay? (s : JsString) : Option (ℚ × JsString) := do
  let _ ← twoDigits? s
  let (seconds, s) ← clock? [(3600, 24), (60, 59), (1, 59)] s
  if seconds ≤ 86400 then some (seconds, s) else none

/-- `hh`, `hhmm` or `hh:mm`, in seconds. -/
def offset? (s : JsString) : Option ℤ := do
  let (hours, s) ← twoDigits? s
  if s = [] ∧ hours < 24 then some (3600 * hours)
  else
    let (minutes, s) ← twoDigits? (skip 0x3a s)
    if s = [] ∧ hours < 24 ∧ minutes < 60 then some (3600 * hours + 60 * minutes) else none

/-- `Z`, or how far the zone is to the east. -/
def zone? : JsString → Option ℤ
  | u :: s =>
    if (u = 0x5a ∨ u = 0x7a) ∧ s = [] then some 0
    else if u = 0x2b then offset? s
    else if u = 0x2d then (offset? s).map fun seconds => -seconds
    else none
  | [] => none

/-- The instant that a text denotes, in milliseconds since the epoch. White space may stand for
the `T`. -/
def isoInstant (s : JsString) : Option ℚ := do
  let (day, s) ← calendarDay? s <|> ordinalDay? s <|> weekDay? s
  match s with
  | u :: s =>
    if u = 0x54 ∨ isWhiteSpace u = true then
      let (seconds, s) ← timeOfDay? s
      let east ← zone? s
      some (1000 * (86400 * day + seconds - east))
    else none
  | [] => none

/-! ### Writing -/

/-- `new Date(ms).toISOString()`. -/
def toISOString (ms : ℕ) : JsString :=
  let seconds := ms / 1000 % 86400
  let fraction := ms % 1000
  dateString (ms / 86400000) ++ ([0x54] ++ digits (seconds / 3600) ++ [0x3a] ++
    digits (seconds / 60 % 60) ++ [0x3a] ++ digits (seconds % 60) ++ [0x2e] ++
    [(0x30 + fraction / 100).toUInt16] ++ digits fraction ++ [0x5a])

theorem twoDigits?_digits (n : ℕ) (rest : JsString) :
    twoDigits? (digits n ++ rest) = some (n % 100, rest) := by
  rw [digits, List.cons_append, List.cons_append, List.nil_append, twoDigits?, number?_digits,
    Option.map_some]

theorem skip_cons (u : UInt16) (rest : JsString) : skip u (u :: rest) = rest := if_pos rfl

theorem year?_digits (m n : ℕ) (rest : JsString) :
    year? (digits m ++ (digits n ++ rest)) =
      some (((100 * (m % 100) + n % 100 : ℕ) : ℤ), rest) := by
  obtain ⟨hdigit, -, -⟩ := JsString.digit_spec (show m / 10 % 10 < 10 by omega)
  have hsign : ∀ u, isDigit u = false → (0x30 + m / 10 % 10).toUInt16 ≠ u := by
    rintro u hu rfl
    rw [hdigit] at hu
    cases hu
  have hyear : year? (digits m ++ (digits n ++ rest)) =
      fourDigits? (digits m ++ (digits n ++ rest)) := by
    rw [digits, List.cons_append, List.cons_append, year?, if_neg (hsign 0x2b (by decide)),
      if_neg (hsign 0x2d (by decide))]
  rw [hyear]
  simp only [fourDigits?, twoDigits?_digits, Option.bind_eq_bind, Option.bind_some]
  push_cast
  rfl

theorem yearStart_eq (k : ℕ) : yearStart ((1970 + k : ℕ) : ℤ) = daysBeforeYear k := by
  rw [yearStart, daysBeforeYear]
  omega

/-- The text of a day reads as that day. -/
theorem calendarDay?_dateString {n : ℕ} (h : n ≤ MAX_DAY) (rest : JsString) :
    calendarDay? (dateString n ++ rest) = some ((n : ℤ), rest) := by
  have hyear := year_le h
  have hday := toDay_civilDate n
  have hnext := lt_daysBeforeMonth_succ _ (sub_daysBeforeYear_lt n)
  have hmonth := monthsOfDay_le (isLeapYear (1970 + yearsOfDay n))
    (n - daysBeforeYear (yearsOfDay n))
  have hshort := day_le _ (sub_daysBeforeYear_lt n)
  have hstart := yearStart_eq (yearsOfDay n)
  simp only [CivilDate.toDay, civilDate, Nat.add_sub_cancel_left, Nat.add_sub_cancel]
    at hyear hday
  simp only [dateString, civilDate, List.append_assoc]
  generalize hm : monthsOfDay (isLeapYear (1970 + yearsOfDay n))
    (n - daysBeforeYear (yearsOfDay n)) = m at *
  have hyear' : 100 * ((1970 + yearsOfDay n) / 100 % 100) + (1970 + yearsOfDay n) % 100 =
      1970 + yearsOfDay n := by omega
  simp only [calendarDay?, year?_digits, twoDigits?_digits, Option.bind_eq_bind, Option.bind_some,
    List.cons_append, List.nil_append, skip_cons, hyear', Int.natAbs_natCast]
  rw [Nat.mod_eq_of_lt (show m + 1 < 100 by omega), Nat.add_sub_cancel,
    Nat.mod_eq_of_lt (show n - daysBeforeYear (yearsOfDay n) -
      daysBeforeMonth (isLeapYear (1970 + yearsOfDay n)) m + 1 < 100 by omega),
    if_pos (by omega)]
  congr 2
  rw [hstart]
  omega

/-- A fraction of three digits. -/
theorem fraction?_three {a b c : ℕ} (ha : a < 10) (hb : b < 10) (hc : c < 10) :
    fraction? [0x2e, (0x30 + a).toUInt16, (0x30 + b).toUInt16, (0x30 + c).toUInt16, 0x5a]
      = some (((100 * a + 10 * b + c : ℕ) : ℚ) / 1000, [0x5a]) := by
  obtain ⟨ha₁, -, ha₂⟩ := JsString.digit_spec ha
  obtain ⟨hb₁, -, hb₂⟩ := JsString.digit_spec hb
  obtain ⟨hc₁, -, hc₂⟩ := JsString.digit_spec hc
  have hz : isDigit 0x5a = false := by decide
  have hdigits : ofDigits 10 digitValue
      [(0x30 + a).toUInt16, (0x30 + b).toUInt16, (0x30 + c).toUInt16] = 100 * a + 10 * b + c := by
    simp only [ofDigits, List.foldl_cons, List.foldl_nil, ha₂, hb₂, hc₂]
    omega
  simp only [fraction?, List.takeWhile_cons, List.dropWhile_cons, ha₁, hb₁, hc₁, hz, if_true,
    Bool.false_eq_true, if_false]
  rw [if_pos ⟨.inl trivial, List.cons_ne_nil _ _⟩, hdigits]
  norm_num

/-- A time of day in milliseconds. -/
theorem timeOfDay?_digits {seconds fraction : ℕ} (hseconds : seconds < 86400)
    (hfraction : fraction < 1000) :
    timeOfDay? (digits (seconds / 3600) ++ (0x3a :: (digits (seconds / 60 % 60) ++
      (0x3a :: (digits (seconds % 60) ++ (0x2e :: (0x30 + fraction / 100).toUInt16 ::
        (digits fraction ++ [0x5a]))))))) = some (seconds + (fraction : ℚ) / 1000, [0x5a]) := by
  have hthree : fraction? (0x2e :: (0x30 + fraction / 100).toUInt16 :: (digits fraction ++ [0x5a]))
      = some ((fraction : ℚ) / 1000, [0x5a]) := by
    refine (fraction?_three (by omega) (by omega) (by omega)).trans ?_
    congr 5
    omega
  have hcolon : ∀ rest, fraction? (0x3a :: rest) = none := fun rest => rfl
  -- hours, minutes and seconds add up
  have hsum : (3600 : ℚ) * (seconds / 3600 : ℕ) + (60 * (seconds / 60 % 60 : ℕ) +
      (seconds % 60 : ℕ)) = seconds := by
    exact_mod_cast show 3600 * (seconds / 3600) + (60 * (seconds / 60 % 60) + seconds % 60) =
      seconds by omega
  have htotal : (3600 : ℚ) * (seconds / 3600 : ℕ) + (60 * (seconds / 60 % 60 : ℕ) +
      1 * ((seconds % 60 : ℕ) + (fraction : ℚ) / 1000)) = seconds + (fraction : ℚ) / 1000 := by
    rw [← hsum]
    ring
  have hsmall : (seconds : ℚ) + (fraction : ℚ) / 1000 ≤ 86400 := by
    have hlast : (seconds : ℚ) ≤ 86399 := by exact_mod_cast Nat.le_pred_of_lt hseconds
    have hunit : (fraction : ℚ) ≤ 1000 := by exact_mod_cast hfraction.le
    linarith
  simp only [timeOfDay?, clock?, twoDigits?_digits, hcolon, hthree, skip_cons,
    Option.bind_eq_bind, Option.bind_some]
  rw [Nat.mod_eq_of_lt (show seconds / 3600 < 100 by omega),
    Nat.mod_eq_of_lt (show seconds / 60 % 60 < 100 by omega),
    Nat.mod_eq_of_lt (show seconds % 60 < 100 by omega), if_neg (by omega), if_neg (by omega),
    if_neg (by omega)]
  simp only [Option.map_some, Option.bind_some, Nat.cast_ofNat, Nat.cast_one, htotal]
  rw [if_pos hsmall]

/-- **An instant up to the year 9999 reads back** from its text. -/
theorem isoInstant_toISOString {ms : ℕ} (h : ms / 86400000 ≤ MAX_DAY) :
    isoInstant (toISOString ms) = some (ms : ℚ) := by
  have hseconds : ms / 1000 % 86400 < 86400 := Nat.mod_lt _ (by decide)
  have hclock := timeOfDay?_digits hseconds (Nat.mod_lt ms (by decide : 0 < 1000))
  have hzone : zone? [0x5a] = some 0 := rfl
  have hsplit : (ms : ℚ) = 1000 * (86400 * (ms / 86400000 : ℕ) + (ms / 1000 % 86400 : ℕ)) +
      (ms % 1000 : ℕ) := by
    exact_mod_cast show ms = 1000 * (86400 * (ms / 86400000) + ms / 1000 % 86400) + ms % 1000 by
      omega
  rw [toISOString, isoInstant, calendarDay?_dateString h]
  simp only [List.append_assoc, List.cons_append, List.nil_append, Option.orElse_eq_orElse,
    Option.orElse_eq_or, Option.some_or, Option.bind_eq_bind, Option.bind_some, true_or, if_true,
    hclock, hzone, Int.cast_natCast, Int.cast_zero]
  rw [hsplit]
  congr 1
  ring

example : isoInstant (js "2026-01-04T23:30.5+09:00") = isoInstant (js "2026004T143030Z") := by
  decide +kernel

example : isoInstant (js "2026-W01-7 24Z") = isoInstant (js "20260105T00,0-00:00") := by
  decide +kernel

end Calendar
