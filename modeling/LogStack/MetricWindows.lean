/-
Every metric response is a window onto one table.

* `dauRow`, `retentionRow`, `revenueRow`, `conversionRow`, `engagementRow` — the row of a day
  (and a currency or a type), whatever range, page or filter is asked for;
* `Windows` — an endpoint answers every valid request with a page out of the rows of its days;
* `windows_of_rows` — what the endpoints have in common is enough for that;
* `metric_windows` — all five do.
-/
import LogStack.MetricsService

open Ingestion Relational Calendar

namespace Metrics

/-! ### Windows -/

/-- The data of an answer; a refused request has none. -/
def dataOf {S R : Type} : Except MetricsError (Response S R) → List R
  | .ok response => response.data
  | .error _ => []

section Windows

variable {S R T : Type} (respond : MetricsQuery → Except MetricsError (Response S R))

/-- The range of a request is valid: two days of the calendar, in order, at most 366 days. -/
structure ValidRange (query : MetricsQuery) (startDay endDay : ℕ) : Prop where
  start : parseDate? query.start = some startDay
  stop : parseDate? query.stop = some endDay
  order : startDay ≤ endDay
  days : endDay - startDay + 1 ≤ MAX_RANGE_DAYS

/-- How the answer to a request relates to all rows of its range: the pages, one after another,
are the rows; `total` counts them; beyond the last page there is nothing; and page and page size
do not matter for the rest. -/
structure WindowOf (query : MetricsQuery) (response : Response S R) (rows : List R) : Prop where
  total : response.info.total = rows.length
  pages : ∀ pages, rows.length ≤ pages * response.info.pageSize →
    ((List.range pages).flatMap fun k =>
      dataOf (respond { query with page := some k.succPNat })) = rows
  beyond : rows.length ≤ (response.info.page - 1) * response.info.pageSize → response.data = []
  summary : ∀ page pageSize, ∃ response',
    respond { query with page := page, pageSize := pageSize } = .ok response' ∧
      response'.summary = response.summary ∧ response'.info.total = response.info.total

/-- Every valid request is answered with a window onto the table that has the rows `table d`
for the day `d`; no two rows of it have the same date and label. -/
def Windows (table : ℤ → List R) (date : R → JsString) (label : R → T) : Prop :=
  ∀ query startDay endDay, ValidRange query startDay endDay →
    ∃ response, respond query = .ok response ∧
      WindowOf respond query response ((generateSeries startDay endDay).flatMap table) ∧
      (((generateSeries startDay endDay).flatMap table).map fun r => (date r, label r)).Nodup ∧
      ∀ d ∈ generateSeries startDay endDay, ∀ r ∈ table d, date r = toDateString d

variable {respond} {table : ℤ → List R} {date : R → JsString} {label : R → T}

/-- The pages of a list of rows are the rows. -/
theorem flatMap_paginate {rows : List R} {query : MetricsQuery} {pages : ℕ}
    (h : rows.length ≤ pages * query.pageLength) :
    ((List.range pages).flatMap fun k =>
      paginate rows { query with page := some k.succPNat }) = rows :=
  (flatMap_pages pages).trans (List.take_of_length_le h)

theorem paginate_beyond {rows : List R} {query : MetricsQuery}
    (h : rows.length ≤ (query.pageNumber - 1) * query.pageLength) : paginate rows query = [] := by
  rw [paginate, List.drop_of_length_le h, List.take_nil]

/-- Days of the supported range have different dates. -/
theorem nodup_dates {startDay endDay : ℕ} (hend : endDay ≤ MAX_DAY)
    (hdate : ∀ d, ∀ r ∈ table d, date r = toDateString d)
    (hlabel : ∀ d, ((table d).map label).Nodup) :
    (((generateSeries startDay endDay).flatMap table).map fun r => (date r, label r)).Nodup := by
  rw [List.map_flatMap, List.nodup_flatMap]
  constructor
  · intro d _
    exact List.Nodup.of_map Prod.snd (by rw [List.map_map]; exact hlabel d)
  · refine pairwise_generateSeries.imp_of_mem fun {d d'} hd hd' hlt => ?_
    rw [mem_generateSeries] at hd hd'
    intro k hk hk'
    obtain ⟨r, hr, rfl⟩ := List.mem_map.mp hk
    obtain ⟨r', hr', heq⟩ := List.mem_map.mp hk'
    have hdates : date r' = date r := congrArg Prod.fst heq
    rw [hdate d r hr, hdate d' r' hr'] at hdates
    have hday := toDateString_inj (by omega) (by omega) hdates
    omega

/-- Counting the rows of a range: `width` for each day, as many days as the service counts. -/
theorem length_rows {startDay endDay width : ℕ} (horder : startDay ≤ endDay)
    (hwidth : ∀ d, (table d).length = width) :
    ((generateSeries startDay endDay).flatMap table).length
      = (endDay - startDay + 1) * width := by
  have hmap : (generateSeries startDay endDay).map (fun d => (table d).length)
      = List.replicate (endDay - startDay + 1) width := by
    rw [List.eq_replicate_iff, List.length_map, length_generateSeries]
    refine ⟨by omega, fun n hn => ?_⟩
    obtain ⟨d, -, rfl⟩ := List.mem_map.mp hn
    exact hwidth d
  rw [List.length_flatMap, hmap, List.sum_replicate_nat]

/-- An endpoint that reads all rows of the range, day by day, answers with windows. -/
theorem windows_of_rows (summary : ℤ → ℤ → S) (rows : ℤ → ℤ → List R) (width : ℕ)
    (hrespond : ∀ query range, parseRange query = .ok range → respond query
      = .ok ⟨buildMeta query range (range.days * width),
          summary (toEpochDay range.start) (toEpochDay range.stop),
          paginate (rows (toEpochDay range.start) (toEpochDay range.stop)) query⟩)
    (hrows : ∀ start stop, rows start stop = (generateSeries start stop).flatMap table)
    (hwidth : ∀ d, (table d).length = width)
    (hdate : ∀ d, ∀ r ∈ table d, date r = toDateString d)
    (hlabel : ∀ d, ((table d).map label).Nodup) : Windows respond table date label := by
  intro query startDay endDay hvalid
  obtain ⟨-, hend, hstop⟩ := parseDate?_eq_some hvalid.stop
  obtain ⟨-, -, hstart⟩ := parseDate?_eq_some hvalid.start
  set range : ParsedRange := ⟨query.start, query.stop, endDay - startDay + 1, startDay⟩ with hrange
  -- the range does not depend on the page, so each page is cut from the same rows
  have hparse : ∀ page pageSize,
      parseRange { query with page := page, pageSize := pageSize } = .ok range :=
    fun page pageSize => parseRange_eq_ok.mpr
      ⟨startDay, endDay, hvalid.start, hvalid.stop, hvalid.order, hvalid.days, rfl⟩
  have hall : rows (toEpochDay range.start) (toEpochDay range.stop)
      = (generateSeries startDay endDay).flatMap table := by
    rw [hrows, hrange, hstart, hstop]
  have hlength := length_rows hvalid.order hwidth
  have hresponse := fun page pageSize => hrespond _ _ (hparse page pageSize)
  rw [hall] at hresponse
  refine ⟨_, hresponse query.page query.pageSize, ⟨?_, ?_, ?_, ?_⟩,
    nodup_dates hend hdate hlabel, fun d _ => hdate d⟩
  · exact hlength.symm
  · intro pages hpages
    have hdata : ∀ k : ℕ, dataOf (respond { query with page := some k.succPNat })
        = paginate ((generateSeries startDay endDay).flatMap table)
            { query with page := some k.succPNat } := by
      intro k
      have hk := hresponse (some k.succPNat) query.pageSize
      rw [hk]
      rfl
    simp only [hdata]
    exact flatMap_paginate hpages
  · exact paginate_beyond
  · intro page pageSize
    exact ⟨_, hresponse page pageSize, rfl, rfl⟩

end Windows

/-! ### The rows -/

variable (fl : ℚ → ℚ) (collation : Collation) (db : Tables) (now : ℤ)

def dauRow (d : ℤ) : DauRow := DauDay.toRow ⟨d, (activeUsers db d).card⟩

def retentionRow (d : ℤ) : RetentionRow :=
  CohortDay.toRow fl (utcDay now) ⟨d, (newUsers db d).card, (returnedUsers db 1 d).card,
    (returnedUsers db 7 d).card, (returnedUsers db 30 d).card⟩

def revenueRow (currency : JsString) (d : ℤ) : RevenueRow :=
  RevenueDay.toRow currency ⟨d, revenueOn db currency d, (activeUsers db d).card⟩

def conversionRow (d : ℤ) : ConversionRow :=
  ConversionDay.toRow fl
    ⟨d, (activeUsers db d ∩ payingUsers db d).card, (activeUsers db d).card⟩

def engagementRow (eventType : JsString) (d : ℤ) : EngagementRow :=
  EngagementDay.toRow fl
    ⟨d, eventType, (engagedUsers db eventType d ∩ activeUsers db d).card,
      (activeUsers db d).card⟩

/-- The types that a request asks for, all of them without a filter. -/
def requestedTypes : Option EventType → List JsString
  | none => eventTypes.map EventType.name
  | some eventType => [eventType.name]

variable {fl collation db now}

theorem map_product {α β γ : Type} {xs : List α} {ys : List β} {f : α × β → γ} :
    (xs ×ˢ ys).map f = xs.flatMap fun x => ys.map fun y => f (x, y) := by
  rw [SProd.sprod, List.instSProd]
  simp only [List.product, List.map_flatMap, List.map_map, Function.comp_def]

theorem parseEventTypes_name (eventType : Option EventType) :
    parseEventTypes (eventType.map EventType.name) = .ok (requestedTypes eventType) := by
  cases eventType with
  | none => rfl
  | some t => exact if_pos (List.mem_map_of_mem (mem_eventTypes t))

theorem nodup_requestedTypes (eventType : Option EventType) :
    (requestedTypes eventType).Nodup := by
  cases eventType with
  | none =>
    have hnodup : eventTypes.Nodup := by decide
    exact hnodup.map EventType.name_injective
  | some t => exact List.nodup_singleton _

/-- The texts of the rows of one day. -/
theorem single_row {R : Type} {date : R → JsString} {row : ℤ → R}
    (h : ∀ d, date (row d) = toDateString d) : ∀ d, ∀ r ∈ [row d], date r = toDateString d := by
  intro d r hr
  rw [List.mem_singleton.mp hr, h]

theorem windows_getDau :
    Windows (getDau db) (fun d => [dauRow db d]) DauRow.date (fun _ => ()) := by
  refine windows_of_rows (uniqueLoginUsers db)
    (fun start stop => (dauByDay db start stop).map DauDay.toRow) 1 ?_ ?_ (fun _ => rfl)
    (single_row fun _ => rfl) fun _ => List.nodup_singleton _
  · intro query range hrange
    rw [getDau, hrange, Nat.mul_one]
    rfl
  · intro start stop
    rw [dauByDay_eq, List.map_map]
    exact (List.flatMap_pure_eq_map _ _).symm

theorem windows_getRetention : Windows (getRetention db fl now)
    (fun d => [retentionRow fl db now d]) RetentionRow.cohortDate (fun _ => ()) := by
  refine windows_of_rows (fun _ _ => ())
    (fun start stop => (retentionByCohort db start stop).map (CohortDay.toRow fl (utcDay now))) 1
    ?_ ?_ (fun _ => rfl) (single_row fun _ => rfl) fun _ => List.nodup_singleton _
  · intro query range hrange
    rw [getRetention, hrange, Nat.mul_one]
    rfl
  · intro start stop
    rw [retentionByCohort_eq, List.map_map]
    exact (List.flatMap_pure_eq_map _ _).symm

theorem parseCurrency_code (currency : { s : JsString // isCurrencyCode s = true }) :
    parseCurrency (some currency.1) = .ok currency.1 := by
  rw [parseCurrency, Option.filter_some, currency.2]
  rfl

theorem windows_getRevenue (currency : { s : JsString // isCurrencyCode s = true }) :
    Windows (getRevenue db (some currency)) (fun d => [revenueRow db currency d]) RevenueRow.date
      (fun _ => ()) := by
  refine windows_of_rows
    (fun start stop => ⟨currency.1, decimalText (revenueTotal db start stop currency.1),
      uniqueLoginUsers db start stop, formatArpuMinor (revenueTotal db start stop currency.1)
        (uniqueLoginUsers db start stop)⟩)
    (fun start stop => (revenueByDay db start stop currency.1).map (RevenueDay.toRow currency.1)) 1
    ?_ ?_ (fun _ => rfl) (single_row fun _ => rfl) fun _ => List.nodup_singleton _
  · intro query range hrange
    rw [getRevenue, parseCurrency_code, hrange, Nat.mul_one]
    rfl
  · intro start stop
    rw [revenueByDay_eq, List.map_map]
    exact (List.flatMap_pure_eq_map _ _).symm

theorem windows_getPurchaseConversion : Windows (getPurchaseConversion db fl)
    (fun d => [conversionRow fl db d]) ConversionRow.date (fun _ => ()) := by
  refine windows_of_rows
    (fun start stop => ⟨(conversionTotals db start stop).payingUsers,
      (conversionTotals db start stop).activeUsers,
      rate fl (conversionTotals db start stop).payingUsers
        (conversionTotals db start stop).activeUsers⟩)
    (fun start stop => (conversionByDay db start stop).map (ConversionDay.toRow fl)) 1
    ?_ ?_ (fun _ => rfl) (single_row fun _ => rfl) fun _ => List.nodup_singleton _
  · intro query range hrange
    rw [getPurchaseConversion, hrange, Nat.mul_one]
    rfl
  · intro start stop
    rw [conversionByDay_eq, List.map_map]
    exact (List.flatMap_pure_eq_map _ _).symm

theorem windows_getEngagement (eventType : Option EventType) :
    Windows (getEngagement db fl collation (eventType.map EventType.name))
      (fun d => (orderBy collation.le (requestedTypes eventType)).map fun t =>
        engagementRow fl db t d) EngagementRow.date EngagementRow.eventType := by
  have htypes := List.mergeSort_perm (requestedTypes eventType) collation.le
  refine windows_of_rows (fun _ _ => ())
    (fun start stop => (engagementByDayType db start stop collation
      (requestedTypes eventType)).map (EngagementDay.toRow fl))
    (requestedTypes eventType).length ?_ ?_ ?_ ?_ ?_
  · intro query range hrange
    rw [getEngagement, parseEventTypes_name, hrange]
    rfl
  · intro start stop
    rw [engagementByDayType_eq, List.map_map, map_product]
    rfl
  · intro d
    rw [List.length_map]
    exact htypes.length_eq
  · intro d r hr
    obtain ⟨t, -, rfl⟩ := List.mem_map.mp hr
    rfl
  · intro d
    rw [List.map_map]
    exact (List.map_id _).symm ▸ htypes.nodup_iff.mpr (nodup_requestedTypes eventType)

/-- **Every metric response is a window onto one table.** For each of the five endpoints the
row of a day is a function of the day (and of the currency or the event type), and a valid
request is answered with its page of the rows of its days, in ascending order, each once. -/
theorem metric_windows (fl : ℚ → ℚ) (collation : Collation) (db : Tables) (now : ℤ) :
    Windows (getDau db) (fun d => [dauRow db d]) DauRow.date (fun _ => ()) ∧
      Windows (getRetention db fl now) (fun d => [retentionRow fl db now d])
        RetentionRow.cohortDate (fun _ => ()) ∧
      (∀ currency : { s : JsString // isCurrencyCode s = true },
        Windows (getRevenue db (some currency)) (fun d => [revenueRow db currency d])
          RevenueRow.date (fun _ => ())) ∧
      Windows (getPurchaseConversion db fl) (fun d => [conversionRow fl db d])
        ConversionRow.date (fun _ => ()) ∧
      ∀ eventType : Option EventType,
        Windows (getEngagement db fl collation (eventType.map EventType.name))
          (fun d => (orderBy collation.le (requestedTypes eventType)).map fun t =>
            engagementRow fl db t d) EngagementRow.date EngagementRow.eventType :=
  ⟨windows_getDau, windows_getRetention, windows_getRevenue, windows_getPurchaseConversion,
    windows_getEngagement⟩

end Metrics
