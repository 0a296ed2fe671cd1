/-
The metrics read tables by day.

* `Ledger` — who did what on which day, and who paid how much;
* `Ledger.figures` — the five queries and their totals, said of a ledger;
* `figures_eq` — the queries of the repository are those of the ledger of the tables.

Two instants of one day make no difference to any query, and the first login of a user matters
by its day alone.
-/
import LogStack.MetricSnapshot

open Ingestion Relational Calendar

namespace Metrics

structure Activity where
  eventType : JsString
  day : ℤ
  userId : ℤ
  deriving DecidableEq

structure DayPayment where
  day : ℤ
  userId : ℤ
  amountMinor : ℤ
  currency : JsString

structure Ledger where
  activities : List Activity
  payments : List DayPayment

/-- The ledger of the tables. -/
def ledger (db : Tables) : Ledger where
  activities := db.gameEvents.map fun g => ⟨g.eventType, utcDay g.occurredAt, g.userId⟩
  payments := db.purchases.map fun p =>
    ⟨utcDay p.occurredAt, p.userId, p.amountMinor, p.currency⟩

/-! ### Queries -/

namespace Ledger

variable (L : Ledger)

def users (eventType : JsString) (day : ℤ) : Finset ℤ :=
  ((L.activities.filter fun a => a.eventType = eventType && a.day = day).map
    Activity.userId).toFinset

def active (day : ℤ) : Finset ℤ := L.users EventType.sessionLogin.name day

def paying (day : ℤ) : Finset ℤ :=
  ((L.payments.filter fun p => p.day = day).map DayPayment.userId).toFinset

def revenue (currency : JsString) (day : ℤ) : ℤ :=
  ((L.payments.filter fun p => p.currency = currency && p.day = day).map
    DayPayment.amountMinor).sum

/-- The users who log in on a day and on none before it. -/
def newUsers (day : ℤ) : Finset ℤ :=
  (L.active day).filter fun u =>
    ∀ a ∈ L.activities, a.eventType = EventType.sessionLogin.name → a.userId = u → day ≤ a.day

def returned (n day : ℤ) : Finset ℤ := (L.newUsers day).filter fun u => u ∈ L.active (day + n)

variable (start stop : ℤ)

def activeInRange : Finset ℤ := (generateSeries start stop).toFinset.biUnion L.active

def payingInRange : Finset ℤ := (generateSeries start stop).toFinset.biUnion L.paying

end Ledger

/-- What the queries of the repository return for a range. -/
structure Figures where
  dau : List DauDay
  uniqueUsers : ℕ
  retention : List CohortDay
  revenue : JsString → List RevenueDay
  revenueTotal : JsString → ℤ
  conversion : List ConversionDay
  conversionTotals : ConversionTotals
  engagement : List JsString → List EngagementDay

def figures (collation : Collation) (db : Tables) (start stop : ℤ) : Figures where
  dau := dauByDay db start stop
  uniqueUsers := uniqueLoginUsers db start stop
  retention := retentionByCohort db start stop
  revenue := revenueByDay db start stop
  revenueTotal := revenueTotal db start stop
  conversion := conversionByDay db start stop
  conversionTotals := conversionTotals db start stop
  engagement := engagementByDayType db start stop collation

def Ledger.figures (collation : Collation) (L : Ledger) (start stop : ℤ) : Figures where
  dau := (generateSeries start stop).map fun d => ⟨d, (L.active d).card⟩
  uniqueUsers := (L.activeInRange start stop).card
  retention := (generateSeries start stop).map fun d =>
    ⟨d, (L.newUsers d).card, (L.returned 1 d).card, (L.returned 7 d).card, (L.returned 30 d).card⟩
  revenue currency := (generateSeries start stop).map fun d =>
    ⟨d, L.revenue currency d, (L.active d).card⟩
  revenueTotal currency := ((generateSeries start stop).map (L.revenue currency)).sum
  conversion := (generateSeries start stop).map fun d =>
    ⟨d, (L.active d ∩ L.paying d).card, (L.active d).card⟩
  conversionTotals := ⟨(L.payingInRange start stop ∩ L.activeInRange start stop).card,
    (L.activeInRange start stop).card⟩
  engagement eventTypes := (generateSeries start stop ×ˢ orderBy collation.le eventTypes).map
    fun k => ⟨k.1, k.2, (L.users k.2 k.1 ∩ L.active k.1).card, (L.active k.1).card⟩

/-! ### The ledger of the tables -/

section Tables

variable {db : Tables} {d u start stop : ℤ}

theorem engagedUsers_ledger (eventType : JsString) :
    engagedUsers db eventType d = (ledger db).users eventType d := by
  rw [engagedUsers, Ledger.users, ledger, List.filter_map, List.map_map]
  rfl

theorem activeUsers_ledger : activeUsers db = (ledger db).active := by
  funext d
  rw [Ledger.active, ← engagedUsers_ledger]
  ext u
  rw [mem_activeUsers_iff, mem_engagedUsers_iff]

theorem payingUsers_ledger : payingUsers db = (ledger db).paying := by
  funext d
  rw [payingUsers, Ledger.paying, ledger, List.filter_map, List.map_map]
  rfl

theorem revenueOn_ledger (currency : JsString) :
    revenueOn db currency = (ledger db).revenue currency := by
  funext d
  rw [revenueOn, Ledger.revenue, ledger, List.filter_map, List.map_map]
  rfl

/-- A user is new on the first of the days with a login. -/
theorem newOn_iff : NewOn db d u ↔ LoggedIn db d u ∧ ∀ d', LoggedIn db d' u → d ≤ d' := by
  have hmono : ∀ s t : ℤ, s ≤ t → utcDay s ≤ utcDay t := fun s t h =>
    Int.ediv_le_ediv (by decide) h
  constructor
  · rintro ⟨t, ⟨⟨g, hg, ⟨hlogin, hu⟩, rfl⟩, hleast⟩, rfl⟩
    refine ⟨⟨g, hg, ⟨hlogin, rfl⟩, hu⟩, ?_⟩
    rintro d' ⟨g', hg', ⟨hlogin', rfl⟩, hu'⟩
    exact hmono _ _ (hleast ⟨g', hg', ⟨hlogin', hu'⟩, rfl⟩)
  · rintro ⟨⟨g, hg, ⟨hlogin, rfl⟩, hu⟩, hfirst⟩
    have hever : (loginTimes db u).Nonempty := ⟨_, g, hg, ⟨hlogin, hu⟩, rfl⟩
    obtain ⟨d₀, hnew, -⟩ := existsUnique_newOn hever
    obtain ⟨t, hleast, rfl⟩ := id hnew
    obtain ⟨g', hg', ⟨hlogin', hu'⟩, rfl⟩ := id hleast.1
    have hle := hfirst _ ⟨g', hg', ⟨hlogin', rfl⟩, hu'⟩
    have hge := hmono _ _ (hleast.2 ⟨g, hg, ⟨hlogin, hu⟩, rfl⟩)
    rw [le_antisymm hle hge]
    exact hnew

theorem newUsers_ledger : newUsers db d = (ledger db).newUsers d := by
  ext u
  rw [mem_newUsers_iff, newOn_iff, Ledger.newUsers, Finset.mem_filter, ← activeUsers_ledger,
    mem_activeUsers_iff]
  refine and_congr_right fun _ => ⟨fun h a ha hlogin hu => ?_, fun h d' hd' => ?_⟩
  · obtain ⟨g, hg, rfl⟩ := List.mem_map.mp ha
    exact h _ ⟨g, hg, ⟨hlogin, rfl⟩, hu⟩
  · obtain ⟨g, hg, ⟨hlogin, rfl⟩, hu⟩ := hd'
    exact h _ (List.mem_map_of_mem hg) hlogin hu

theorem returnedUsers_ledger (n : ℤ) : returnedUsers db n d = (ledger db).returned n d := by
  simp only [returnedUsers, Ledger.returned, newUsers_ledger, activeUsers_ledger]

theorem activeInRange_ledger :
    activeInRange db start stop = (ledger db).activeInRange start stop := by
  rw [activeInRange, Ledger.activeInRange, activeUsers_ledger]

theorem payingInRange_ledger :
    payingInRange db start stop = (ledger db).payingInRange start stop := by
  rw [payingInRange, Ledger.payingInRange, payingUsers_ledger]

/-- **The queries read tables by day.** -/
theorem figures_eq (collation : Collation) :
    figures collation db start stop = (ledger db).figures collation start stop := by
  simp only [figures, Ledger.figures, Figures.mk.injEq]
  refine ⟨?_, ?_, ?_, ?_, ?_, ?_, ?_, ?_⟩
  · simp only [dauByDay_eq, activeUsers_ledger]
  · rw [uniqueLoginUsers_eq, activeInRange_ledger]
  · simp only [retentionByCohort_eq, newUsers_ledger, returnedUsers_ledger]
  · funext currency
    simp only [revenueByDay_eq, revenueOn_ledger, activeUsers_ledger]
  · funext currency
    rw [← sum_revenueOn, revenueOn_ledger]
  · simp only [conversionByDay_eq, activeUsers_ledger, payingUsers_ledger]
  · rw [conversionTotals_eq, activeInRange_ledger, payingInRange_ledger]
  · funext eventTypes
    simp only [engagementByDayType_eq, engagedUsers_ledger, activeUsers_ledger]

end Tables

end Metrics
