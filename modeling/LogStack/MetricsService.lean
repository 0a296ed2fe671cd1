/-
Metric responses.

* `parseRange`, `parseCurrency`, `parseEventTypes` — what a request must satisfy beyond the
  shape of its parameters, and the errors it gets otherwise;
* `paginate`, `buildMeta` — the page of the request, out of all rows;
* `getDau`, `getRetention`, `getRevenue`, `getPurchaseConversion`, `getEngagement`.

A quotient of two counts is a double: `fl` says which double an exact result becomes.
-/
import LogStack.MetricRows
import Mathlib.Algebra.Order.Floor.Ring
import Mathlib.Algebra.Order.Ring.Rat
import Mathlib.Data.Nat.Digits.Defs
import Mathlib.Data.PNat.Defs
import Mathlib.Data.Rat.Floor

open Ingestion Calendar

namespace Metrics

/-! ### Requests -/

def MAX_RANGE_DAYS : ℕ := 366

def DEFAULT_PAGE_SIZE : ℕ := 31

abbrev PageSize := { n : ℕ // 1 ≤ n ∧ n ≤ 100 }

/-- The parameters that all five endpoints take. -/
structure MetricsQuery where
  start : JsString
  stop : JsString
  page : Option ℕ+
  pageSize : Option PageSize

structure MetricsError where
  code : JsString
  message : JsString

structure ParsedRange where
  start : JsString
  stop : JsString
  days : ℕ
  startDay : ℕ

def parseCalendarDay (value field : JsString) : Except MetricsError ℕ :=
  match parseDate? value with
  | some day => .ok day
  | none => .error ⟨js "INVALID_DATE_RANGE",
      field ++ js " must be a valid calendar date between 1970-01-01 and 9999-12-31"⟩

def parseRange (query : MetricsQuery) : Except MetricsError ParsedRange := do
  let startDay ← parseCalendarDay query.start (js "start")
  let endDay ← parseCalendarDay query.stop (js "end")
  let days := endDay - startDay + 1
  if startDay > endDay then
    .error ⟨js "INVALID_DATE_RANGE", js "start must be less than or equal to end"⟩
  else if days > MAX_RANGE_DAYS then
    .error ⟨js "RANGE_TOO_LARGE", js "date range must be at most 366 days"⟩
  else .ok ⟨query.start, query.stop, days, startDay⟩

def parseCurrency (value : Option JsString) : Except MetricsError JsString :=
  match value.filter isCurrencyCode with
  | some currency => .ok currency
  | none => .error ⟨js "INVALID_CURRENCY",
      js "currency is required and must be an ISO 4217 code (e.g. KRW)"⟩

def parseEventTypes : Option JsString → Except MetricsError (List JsString)
  | none => .ok (eventTypes.map EventType.name)
  | some value =>
    if value ∈ eventTypes.map EventType.name then .ok [value]
    else .error ⟨js "UNKNOWN_EVENT_TYPE",
      js "event_type must be one of the 13 defined event types"⟩

/-! ### Responses -/

structure MetricsMeta where
  start : JsString
  stop : JsString
  page : ℕ
  pageSize : ℕ
  total : ℕ

/-- A response; the endpoints without a summary have `Unit` for it. -/
structure Response (S R : Type) where
  info : MetricsMeta
  summary : S
  data : List R

def MetricsQuery.pageNumber (query : MetricsQuery) : ℕ := (query.page.map PNat.val).getD 1

def MetricsQuery.pageLength (query : MetricsQuery) : ℕ :=
  (query.pageSize.map Subtype.val).getD DEFAULT_PAGE_SIZE

def buildMeta (query : MetricsQuery) (range : ParsedRange) (total : ℕ) : MetricsMeta where
  start := range.start
  stop := range.stop
  page := query.pageNumber
  pageSize := query.pageLength
  total := total

/-- `rows.slice((page - 1) * pageSize, page * pageSize)`. -/
def paginate {R : Type} (rows : List R) (query : MetricsQuery) : List R :=
  (rows.drop ((query.pageNumber - 1) * query.pageLength)).take query.pageLength

/-! ### Numbers -/

section Numbers

variable (fl : ℚ → ℚ)

/-- `Math.round(value * 10_000) / 10_000`. -/
def round4 (value : ℚ) : ℚ := fl (⌊fl (value * 10000) + 1 / 2⌋ / 10000)

def rate (numerator denominator : ℕ) : Option ℚ :=
  if denominator = 0 then none else some (round4 fl (fl (numerator / denominator)))

end Numbers

/-- `toString` of a `BigInt`, and `::text` of a `numeric` sum of integers. -/
def decimalText (z : ℤ) : JsString :=
  if z < 0 then js "-" ++ decimal z.natAbs else decimal z.natAbs

/-- `s.padStart(2, '0')`. -/
def padStart2 (s : JsString) : JsString := List.replicate (2 - s.length) 0x30 ++ s

/-- `BigInt` division truncates. -/
def formatArpuMinor (revenueMinor : ℤ) (activeUsers : ℕ) : Option JsString :=
  if activeUsers = 0 then none
  else
    let users : ℤ := activeUsers
    let numerator := revenueMinor * 100
    let quotient := numerator.tdiv users
    let remainder := numerator.tmod users
    let cents := quotient + if remainder * 2 ≥ users then 1 else 0
    some (decimalText (cents.tdiv 100) ++ js "." ++ padStart2 (decimalText (cents.tmod 100)))

/-! ### The endpoints -/

variable (db : Tables)

structure DauRow where
  date : JsString
  dau : ℕ

def DauDay.toRow (row : DauDay) : DauRow := ⟨toDateString row.day, row.dau⟩

/-- The two queries read one snapshot. -/
def getDau (query : MetricsQuery) : Except MetricsError (Response ℕ DauRow) := do
  let range ← parseRange query
  let (start, stop) := (toEpochDay range.start, toEpochDay range.stop)
  let data := (dauByDay db start stop).map DauDay.toRow
  return ⟨buildMeta query range range.days, uniqueLoginUsers db start stop, paginate data query⟩

structure Matured where
  d1 : Bool
  d7 : Bool
  d30 : Bool

structure RetentionRow where
  cohortDate : JsString
  newUsers : ℕ
  d1 : Option ℚ
  d7 : Option ℚ
  d30 : Option ℚ
  matured : Matured

def CohortDay.toRow (fl : ℚ → ℚ) (todayDay : ℤ) (row : CohortDay) : RetentionRow :=
  let cohortDate := toDateString row.cohortDate
  let cohortDay := toEpochDay cohortDate
  let rate (n : ℤ) (returned : ℕ) : Option ℚ :=
    if ¬todayDay > cohortDay + n ∨ row.newUsers = 0 then none
    else some (round4 fl (fl (returned / row.newUsers)))
  { cohortDate := cohortDate
    newUsers := row.newUsers
    d1 := rate 1 row.returnedD1
    d7 := rate 7 row.returnedD7
    d30 := rate 30 row.returnedD30
    matured :=
      ⟨todayDay > cohortDay + 1, todayDay > cohortDay + 7, todayDay > cohortDay + 30⟩ }

/-- `now` is `Date.now()`. -/
def getRetention (fl : ℚ → ℚ) (now : ℤ) (query : MetricsQuery) :
    Except MetricsError (Response Unit RetentionRow) := do
  let range ← parseRange query
  let rows := retentionByCohort db (toEpochDay range.start) (toEpochDay range.stop)
  let data := rows.map (CohortDay.toRow fl (utcDay now))
  return ⟨buildMeta query range range.days, (), paginate data query⟩

structure RevenueRow where
  date : JsString
  currency : JsString
  revenueMinor : JsString
  activeUsers : ℕ
  arpuMinor : Option JsString

def RevenueDay.toRow (currency : JsString) (row : RevenueDay) : RevenueRow where
  date := toDateString row.day
  currency := currency
  revenueMinor := decimalText row.revenueMinor
  activeUsers := row.activeUsers
  arpuMinor := formatArpuMinor row.revenueMinor row.activeUsers

structure RevenueSummary where
  currency : JsString
  revenueMinor : JsString
  activeUsers : ℕ
  arpuMinor : Option JsString

def getRevenue (currency : Option JsString) (query : MetricsQuery) :
    Except MetricsError (Response RevenueSummary RevenueRow) := do
  let currency ← parseCurrency currency
  let range ← parseRange query
  let (start, stop) := (toEpochDay range.start, toEpochDay range.stop)
  let data := (revenueByDay db start stop currency).map (RevenueDay.toRow currency)
  let revenueTotal := revenueTotal db start stop currency
  let activeTotal := uniqueLoginUsers db start stop
  let summary : RevenueSummary :=
    ⟨currency, decimalText revenueTotal, activeTotal, formatArpuMinor revenueTotal activeTotal⟩
  return ⟨buildMeta query range range.days, summary, paginate data query⟩

structure ConversionRow where
  date : JsString
  payingUsers : ℕ
  activeUsers : ℕ
  conversionRate : Option ℚ

def ConversionDay.toRow (fl : ℚ → ℚ) (row : ConversionDay) : ConversionRow where
  date := toDateString row.day
  payingUsers := row.payingUsers
  activeUsers := row.activeUsers
  conversionRate := rate fl row.payingUsers row.activeUsers

structure ConversionSummary where
  payingUsers : ℕ
  activeUsers : ℕ
  conversionRate : Option ℚ

def getPurchaseConversion (fl : ℚ → ℚ) (query : MetricsQuery) :
    Except MetricsError (Response ConversionSummary ConversionRow) := do
  let range ← parseRange query
  let (start, stop) := (toEpochDay range.start, toEpochDay range.stop)
  let data := (conversionByDay db start stop).map (ConversionDay.toRow fl)
  let totals := conversionTotals db start stop
  let summary : ConversionSummary :=
    ⟨totals.payingUsers, totals.activeUsers, rate fl totals.payingUsers totals.activeUsers⟩
  return ⟨buildMeta query range range.days, summary, paginate data query⟩

structure EngagementRow where
  date : JsString
  eventType : JsString
  engagedUsers : ℕ
  dau : ℕ
  engagementRate : Option ℚ

def EngagementDay.toRow (fl : ℚ → ℚ) (row : EngagementDay) : EngagementRow where
  date := toDateString row.day
  eventType := row.eventType
  engagedUsers := row.engagedUsers
  dau := row.dau
  engagementRate := rate fl row.engagedUsers row.dau

def getEngagement (fl : ℚ → ℚ) (collation : Collation) (eventType : Option JsString)
    (query : MetricsQuery) : Except MetricsError (Response Unit EngagementRow) := do
  let eventTypes ← parseEventTypes eventType
  let range ← parseRange query
  let rows := engagementByDayType db (toEpochDay range.start) (toEpochDay range.stop)
    collation eventTypes
  let data := rows.map (EngagementDay.toRow fl)
  return ⟨buildMeta query range (range.days * eventTypes.length), (), paginate data query⟩

/-! ### What is accepted -/

variable {query : MetricsQuery} {range : ParsedRange}

theorem parseCalendarDay_eq_ok {value field : JsString} {day : ℕ} :
    parseCalendarDay value field = .ok day ↔ parseDate? value = some day := by
  rw [parseCalendarDay]
  cases parseDate? value <;> simp

/-- The range of an accepted request: both texts are days, in order, and not too far apart. -/
theorem parseRange_eq_ok : parseRange query = .ok range ↔
    ∃ startDay endDay, parseDate? query.start = some startDay ∧
      parseDate? query.stop = some endDay ∧ startDay ≤ endDay ∧
      endDay - startDay + 1 ≤ MAX_RANGE_DAYS ∧
      range = ⟨query.start, query.stop, endDay - startDay + 1, startDay⟩ := by
  simp only [parseRange, Except.bind_eq_ok, parseCalendarDay_eq_ok]
  constructor
  · rintro ⟨startDay, hstart, endDay, hstop, h⟩
    split_ifs at h with horder hdays
    exact ⟨startDay, endDay, hstart, hstop, not_lt.mp horder, not_lt.mp hdays,
      (Except.ok.inj h).symm⟩
  · rintro ⟨startDay, endDay, hstart, hstop, horder, hdays, rfl⟩
    refine ⟨startDay, hstart, endDay, hstop, ?_⟩
    rw [if_neg (not_lt.mpr horder), if_neg (not_lt.mpr hdays)]

end Metrics
