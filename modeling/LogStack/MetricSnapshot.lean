/-
One snapshot for the data and the summary of a response.

* `Session`, `read` — the statements of a `REPEATABLE READ` transaction, while others commit;
* `dauWithSummary`, `revenueWithSummary`, `conversionWithSummary` — the transactions of the
  repository, statement by statement;
* `sum_revenueOn` — the days of a range part its purchases;
* `data_agrees_with_summary` — the summary is the sum of the days, or lies between their
  maximum and their sum.
-/
import LogStack.MetricCounts

open Ingestion Relational Calendar

namespace Metrics

/-! ### Transactions -/

/-- The committed tables at each moment at which the transaction runs a statement. -/
abbrev Commits := ℕ → Tables

/-- A transaction that has run `statements` statements; the first one takes its snapshot. -/
structure Session where
  statements : ℕ := 0
  snapshot : Option Tables := none

abbrev Transaction := StateM Session

/-- A query of a `REPEATABLE READ` transaction. -/
def read {α : Type} (commits : Commits) (query : Tables → α) : Transaction α := fun session =>
  let snapshot := session.snapshot.getD (commits session.statements)
  (query snapshot, ⟨session.statements + 1, some snapshot⟩)

/-- `dataSource.transaction('REPEATABLE READ', fn)`. -/
def snapshot {α : Type} (transaction : Transaction α) : α := (transaction {}).1

section Repository

variable (commits : Commits) (start stop : ℤ)

def dauWithSummary : List DauDay × ℕ := snapshot do
  let rows ← read commits fun db => dauByDay db start stop
  let uniqueUsers ← read commits fun db => uniqueLoginUsers db start stop
  return (rows, uniqueUsers)

def revenueWithSummary (currency : JsString) : List RevenueDay × ℤ × ℕ := snapshot do
  let rows ← read commits fun db => revenueByDay db start stop currency
  let revenueTotal ← read commits fun db => revenueTotal db start stop currency
  let activeTotal ← read commits fun db => uniqueLoginUsers db start stop
  return (rows, revenueTotal, activeTotal)

def conversionWithSummary : List ConversionDay × ConversionTotals := snapshot do
  let rows ← read commits fun db => conversionByDay db start stop
  let totals ← read commits fun db => conversionTotals db start stop
  return (rows, totals)

end Repository

/-! ### Responses -/

section Service

variable (commits : Commits)

def respondDau (query : MetricsQuery) : Except MetricsError (Response ℕ DauRow) := do
  let range ← parseRange query
  let (rows, uniqueUsers) :=
    dauWithSummary commits (toEpochDay range.start) (toEpochDay range.stop)
  return ⟨buildMeta query range range.days, uniqueUsers,
    paginate (rows.map DauDay.toRow) query⟩

def respondRevenue (currency : Option JsString) (query : MetricsQuery) :
    Except MetricsError (Response RevenueSummary RevenueRow) := do
  let currency ← parseCurrency currency
  let range ← parseRange query
  let (rows, revenueTotal, activeTotal) :=
    revenueWithSummary commits (toEpochDay range.start) (toEpochDay range.stop) currency
  return ⟨buildMeta query range range.days,
    ⟨currency, decimalText revenueTotal, activeTotal, formatArpuMinor revenueTotal activeTotal⟩,
    paginate (rows.map (RevenueDay.toRow currency)) query⟩

def respondPurchaseConversion (fl : ℚ → ℚ) (query : MetricsQuery) :
    Except MetricsError (Response ConversionSummary ConversionRow) := do
  let range ← parseRange query
  let (rows, totals) :=
    conversionWithSummary commits (toEpochDay range.start) (toEpochDay range.stop)
  return ⟨buildMeta query range range.days,
    ⟨totals.payingUsers, totals.activeUsers, rate fl totals.payingUsers totals.activeUsers⟩,
    paginate (rows.map (ConversionDay.toRow fl)) query⟩

/-- Nothing that commits after the first statement is seen. -/
theorem respondDau_eq (query : MetricsQuery) :
    respondDau commits query = getDau (commits 0) query := rfl

theorem respondRevenue_eq (currency : Option JsString) (query : MetricsQuery) :
    respondRevenue commits currency query = getRevenue (commits 0) currency query := rfl

theorem respondPurchaseConversion_eq (fl : ℚ → ℚ) (query : MetricsQuery) :
    respondPurchaseConversion commits fl query = getPurchaseConversion (commits 0) fl query := rfl

end Service

/-! ### Days and their range -/

variable {db : Tables} {start stop : ℤ}

/-- **The days of a range part its purchases.** -/
theorem sum_revenueOn (currency : JsString) :
    ((generateSeries start stop).map (revenueOn db currency)).sum
      = revenueTotal db start stop currency := by
  have hday : revenueOn db currency = fun d => (((db.purchases.filter fun p =>
      p.currency = currency).filter fun p => utcDay p.occurredAt = d).map
        PurchaseRow.amountMinor).sum := by
    funext d
    rw [revenueOn, List.filter_filter]
    simp only [Bool.and_comm]
  have hrange : (fun p : PurchaseRow => decide (utcDay p.occurredAt ∈ generateSeries start stop))
      = fun p => inRange start stop p.occurredAt := by
    funext p
    rw [Bool.eq_iff_iff, decide_eq_true_iff, mem_generateSeries, inRange_iff]
  rw [hday, sum_groups nodup_generateSeries, hrange, revenueTotal, purchasesInRange,
    List.filter_comm]

/-- A set of the whole range has at least the users of each day, and at most those of all days
together. -/
theorem card_between (start stop : ℤ) (users : ℤ → Finset ℤ) :
    (∀ d ∈ generateSeries start stop, (users d).card
      ≤ ((generateSeries start stop).toFinset.biUnion users).card) ∧
    ((generateSeries start stop).toFinset.biUnion users).card
      ≤ ((generateSeries start stop).map fun d => (users d).card).sum := by
  refine ⟨fun d hd => Finset.card_le_card (Finset.subset_biUnion_of_mem users
    (List.mem_toFinset.mpr hd)), ?_⟩
  rw [← List.sum_toFinset _ nodup_generateSeries]
  exact Finset.card_biUnion_le

/-! ### Data and summary -/

/-- A figure of a whole range lies between the largest of its days and their sum. -/
structure Between (days : List ℕ) (whole : ℕ) : Prop where
  max_le : ∀ n ∈ days, n ≤ whole
  le_sum : whole ≤ days.sum

/-- The revenue response: daily amounts, written out, and their sum. -/
structure RevenueAgrees (summary : RevenueSummary) (rows : List RevenueRow) : Prop where
  revenueMinor : ∃ amounts : List ℤ, rows.map RevenueRow.revenueMinor = amounts.map decimalText ∧
    summary.revenueMinor = decimalText amounts.sum
  activeUsers : Between (rows.map RevenueRow.activeUsers) summary.activeUsers

/-- The conversion response. -/
structure ConversionAgrees (db : Tables) (start stop : ℤ) (summary : ConversionSummary)
    (rows : List ConversionRow) : Prop where
  activeUsers : Between (rows.map ConversionRow.activeUsers) summary.activeUsers
  payingSomeDay : {u | ∃ d, (start ≤ d ∧ d ≤ stop) ∧ Purchased db d u ∧ LoggedIn db d u}.encard
    ≤ summary.payingUsers
  payingUsers : summary.payingUsers ≤ summary.activeUsers

theorem between_activeUsers :
    Between ((generateSeries start stop).map fun d => (activeUsers db d).card)
      (uniqueLoginUsers db start stop) := by
  obtain ⟨hmax, hsum⟩ := card_between start stop (activeUsers db)
  rw [uniqueLoginUsers_eq]
  refine ⟨fun n hn => ?_, hsum⟩
  obtain ⟨d, hd, rfl⟩ := List.mem_map.mp hn
  exact hmax d hd

theorem dau_agrees : OverRange (getDau db) fun _ _ summary rows =>
    Between (rows.map DauRow.dau) summary := by
  refine overRange_of_windows windows_getDau
    fun query startDay endDay response hvalid hresponse => ?_
  obtain ⟨hstart, hstop⟩ := toEpochDay_of_valid hvalid
  rw [getDau, parseRange_of_valid hvalid] at hresponse
  obtain rfl := Except.ok.inj hresponse
  rw [flatMap_single, List.map_map, hstart, hstop]
  exact between_activeUsers

theorem revenue_agrees (currency : { s : JsString // isCurrencyCode s = true }) :
    OverRange (getRevenue db (some currency)) fun _ _ summary rows =>
      RevenueAgrees summary rows := by
  refine overRange_of_windows (windows_getRevenue currency)
    fun query startDay endDay response hvalid hresponse => ?_
  obtain ⟨hstart, hstop⟩ := toEpochDay_of_valid hvalid
  rw [getRevenue, parseCurrency_code, parseRange_of_valid hvalid] at hresponse
  obtain rfl := Except.ok.inj hresponse
  rw [flatMap_single, hstart, hstop]
  refine ⟨⟨(generateSeries startDay endDay).map (revenueOn db currency), ?_, ?_⟩, ?_⟩
  · rw [List.map_map, List.map_map]
    rfl
  · rw [sum_revenueOn]
  · rw [List.map_map]
    exact between_activeUsers

theorem conversion_agrees (D : Doubles) : OverRange (getPurchaseConversion db D.round)
    fun start stop summary rows => ConversionAgrees db start stop summary rows := by
  refine overRange_of_windows windows_getPurchaseConversion
    fun query startDay endDay response hvalid hresponse => ?_
  obtain ⟨hstart, hstop⟩ := toEpochDay_of_valid hvalid
  have hsummary := conversionSummaryOf hvalid hresponse
  rw [getPurchaseConversion, parseRange_of_valid hvalid] at hresponse
  obtain rfl := Except.ok.inj hresponse
  rw [flatMap_single]
  refine ⟨?_, ?_, hsummary.rate.part_le⟩
  · rw [List.map_map, hstart, hstop]
    exact between_activeUsers
  · rw [← hsummary.payingUsers]
    refine Set.encard_le_encard ?_
    rintro u ⟨d, hd, hpurchased, hlogin⟩
    exact ⟨⟨d, hd, hpurchased⟩, d, hd, hlogin⟩

/-- **Data and summary of one response agree**, whatever commits while it is computed. -/
theorem data_agrees_with_summary (D : Doubles) (commits : Commits) :
    (OverRange (respondDau commits) fun _ _ summary rows =>
      Between (rows.map DauRow.dau) summary) ∧
    (∀ currency : { s : JsString // isCurrencyCode s = true },
      OverRange (respondRevenue commits (some currency)) fun _ _ summary rows =>
        RevenueAgrees summary rows) ∧
    OverRange (respondPurchaseConversion commits D.round) fun start stop summary rows =>
      ConversionAgrees (commits 0) start stop summary rows := by
  have hdau : respondDau commits = getDau (commits 0) := funext (respondDau_eq commits)
  have hrevenue : ∀ currency, respondRevenue commits currency = getRevenue (commits 0) currency :=
    fun currency => funext (respondRevenue_eq commits currency)
  have hconversion : respondPurchaseConversion commits D.round
      = getPurchaseConversion (commits 0) D.round :=
    funext (respondPurchaseConversion_eq commits D.round)
  rw [hdau, hconversion]
  refine ⟨dau_agrees, fun currency => ?_, conversion_agrees D⟩
  rw [hrevenue]
  exact revenue_agrees currency

end Metrics
