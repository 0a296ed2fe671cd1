/-
What the metrics read.

* `GameEventRow.sighting`, `PurchaseRow.payment` — the columns that the queries use;
* `SameEvidence` — the same sightings, however often, and the same payments, as often;
* `sameMetrics_of_sameEvidence` — every response is the same on such tables.

That a purchase was recorded under one event id or another, or which product it names, is no
part of this.
-/
import LogStack.MetricsService
import Mathlib.Algebra.BigOperators.Group.List.Lemmas

open Ingestion Relational Calendar

namespace Ingestion

/-- The type, the user and the time of an event. -/
def GameEventRow.sighting (g : GameEventRow) : JsString × ℤ × ℤ :=
  (g.eventType, g.userId, g.occurredAt)

structure Payment where
  userId : ℤ
  occurredAt : ℤ
  amountMinor : ℤ
  currency : JsString
  deriving DecidableEq

def PurchaseRow.payment (p : PurchaseRow) : Payment :=
  ⟨p.userId, p.occurredAt, p.amountMinor, p.currency⟩

end Ingestion

namespace Metrics

structure SameEvidence (db db' : Tables) : Prop where
  sightings : ∀ s, s ∈ db.gameEvents.map GameEventRow.sighting ↔
    s ∈ db'.gameEvents.map GameEventRow.sighting
  payments : (db.purchases.map PurchaseRow.payment).Perm (db'.purchases.map PurchaseRow.payment)

/-- Every request gets the same response, at any time. -/
structure SameMetrics (fl : ℚ → ℚ) (collation : Collation) (db db' : Tables) : Prop where
  dau : ∀ query, getDau db query = getDau db' query
  retention : ∀ now query, getRetention db fl now query = getRetention db' fl now query
  revenue : ∀ currency query, getRevenue db currency query = getRevenue db' currency query
  conversion : ∀ query, getPurchaseConversion db fl query = getPurchaseConversion db' fl query
  engagement : ∀ eventType query,
    getEngagement db fl collation eventType query = getEngagement db' fl collation eventType query

namespace SameEvidence

variable {db db' : Tables}

theorem symm (h : SameEvidence db db') : SameEvidence db' db :=
  ⟨fun s => (h.sightings s).symm, h.payments.symm⟩

variable {P : JsString → ℤ → ℤ → Prop} {Q : Payment → Prop} {d : ℤ}

theorem of_event (h : SameEvidence db db')
    (hevent : ∃ g ∈ db.gameEvents, P g.eventType g.userId g.occurredAt) :
    ∃ g ∈ db'.gameEvents, P g.eventType g.userId g.occurredAt := by
  obtain ⟨g, hg, hP⟩ := hevent
  obtain ⟨g', hg', heq⟩ := List.mem_map.mp ((h.sightings _).mp (List.mem_map_of_mem hg))
  simp only [GameEventRow.sighting, Prod.mk.injEq] at heq
  exact ⟨g', hg', by rwa [heq.1, heq.2.1, heq.2.2]⟩

theorem of_purchase (h : SameEvidence db db') (hpurchase : ∃ p ∈ db.purchases, Q p.payment) :
    ∃ p ∈ db'.purchases, Q p.payment := by
  obtain ⟨p, hp, hQ⟩ := hpurchase
  obtain ⟨p', hp', heq⟩ := List.mem_map.mp (h.payments.mem_iff.mp (List.mem_map_of_mem hp))
  exact ⟨p', hp', by rwa [heq]⟩

variable (h : SameEvidence db db')

include h

theorem event_iff : (∃ g ∈ db.gameEvents, P g.eventType g.userId g.occurredAt) ↔
    ∃ g ∈ db'.gameEvents, P g.eventType g.userId g.occurredAt :=
  ⟨h.of_event, h.symm.of_event⟩

theorem purchase_iff : (∃ p ∈ db.purchases, Q p.payment) ↔ ∃ p ∈ db'.purchases, Q p.payment :=
  ⟨h.of_purchase, h.symm.of_purchase⟩

/-! ### Users -/

theorem login_iff {P : ℤ → ℤ → Prop} : (∃ g ∈ logins db, P g.userId g.occurredAt) ↔
    ∃ g ∈ logins db', P g.userId g.occurredAt := by
  simp only [logins, List.mem_filter, and_assoc, isLogin, decide_eq_true_iff]
  exact h.event_iff (P := fun t u at_ => t = EventType.sessionLogin.name ∧ P u at_)

theorem activeUsers : activeUsers db d = activeUsers db' d := by
  ext u
  rw [mem_activeUsers, mem_activeUsers]
  exact h.login_iff (P := fun u' t => utcDay t = d ∧ u' = u)

theorem payingUsers : payingUsers db d = payingUsers db' d := by
  ext u
  rw [mem_payingUsers, mem_payingUsers]
  exact h.purchase_iff (Q := fun q => utcDay q.occurredAt = d ∧ q.userId = u)

theorem engagedUsers (eventType : JsString) :
    engagedUsers db eventType d = engagedUsers db' eventType d := by
  ext u
  rw [mem_engagedUsers, mem_engagedUsers]
  exact h.event_iff (P := fun t u' at_ => (t = eventType ∧ utcDay at_ = d) ∧ u' = u)

omit h in
/-- The least of a list depends on its members only. -/
theorem min?_congr {xs ys : List ℤ} (hmem : ∀ z, z ∈ xs ↔ z ∈ ys) : xs.min? = ys.min? := by
  ext m
  rw [List.min?_eq_some_iff, List.min?_eq_some_iff, hmem]
  simp only [hmem]

theorem firstLoginAt (u : ℤ) : firstLoginAt db u = firstLoginAt db' u := by
  refine min?_congr fun t => ?_
  simp only [List.mem_map, List.mem_filter, decide_eq_true_iff, and_assoc]
  exact h.login_iff (P := fun u' t' => u' = u ∧ t' = t)

theorem newUsers : newUsers db d = newUsers db' d := by
  ext u
  rw [mem_newUsers, mem_newUsers, h.firstLoginAt]
  exact and_congr_left' (h.login_iff (P := fun u' _ => u' = u))

theorem returnedUsers (n : ℤ) : returnedUsers db n d = returnedUsers db' n d := by
  rw [Metrics.returnedUsers, Metrics.returnedUsers, h.newUsers, h.activeUsers]

/-! ### Sums -/

theorem sum_amounts (p : Payment → Bool) :
    ((db.purchases.filter fun r => p r.payment).map PurchaseRow.amountMinor).sum
      = ((db'.purchases.filter fun r => p r.payment).map PurchaseRow.amountMinor).sum := by
  have hmap : ∀ tables : Tables,
      (tables.purchases.filter fun r => p r.payment).map PurchaseRow.amountMinor
        = ((tables.purchases.map PurchaseRow.payment).filter p).map Payment.amountMinor := by
    intro tables
    rw [List.filter_map, List.map_map]
    rfl
  rw [hmap, hmap]
  exact ((h.payments.filter p).map _).sum_eq

theorem revenueOn (currency : JsString) : revenueOn db currency d = revenueOn db' currency d :=
  h.sum_amounts fun q => q.currency = currency && utcDay q.occurredAt = d

variable {start stop : ℤ}

theorem revenueTotal (currency : JsString) :
    revenueTotal db start stop currency = revenueTotal db' start stop currency := by
  simp only [Metrics.revenueTotal, purchasesInRange, List.filter_filter]
  exact h.sum_amounts fun q => q.currency = currency && inRange start stop q.occurredAt

theorem uniqueLoginUsers : uniqueLoginUsers db start stop = uniqueLoginUsers db' start stop := by
  rw [Metrics.uniqueLoginUsers, Metrics.uniqueLoginUsers, countDistinct_eq_card,
    countDistinct_eq_card]
  congr 1
  ext u
  simp only [List.mem_toFinset, List.mem_map, loginsInRange, List.mem_filter, and_assoc]
  exact h.login_iff (P := fun u' t => inRange start stop t = true ∧ u' = u)

theorem conversionTotals : conversionTotals db start stop = conversionTotals db' start stop := by
  have hpaying : ∀ tables : Tables, (Metrics.conversionTotals tables start stop).payingUsers
      = (((purchasesInRange tables start stop).filter fun p =>
          (loginsInRange tables start stop).any fun g => g.userId = p.userId).map
            PurchaseRow.userId).toFinset.card := fun _ => countDistinct_eq_card
  have hlogin : ∀ u : ℤ, ((loginsInRange db start stop).any fun g => g.userId = u) = true ↔
      ((loginsInRange db' start stop).any fun g => g.userId = u) = true := by
    intro u
    simp only [List.any_eq_true, loginsInRange, List.mem_filter, decide_eq_true_iff, and_assoc]
    exact h.login_iff (P := fun u' t => inRange start stop t = true ∧ u' = u)
  have hset : (Metrics.conversionTotals db start stop).payingUsers
      = (Metrics.conversionTotals db' start stop).payingUsers := by
    rw [hpaying, hpaying]
    congr 1
    ext u
    simp only [List.mem_toFinset, List.mem_map, purchasesInRange, List.mem_filter, and_assoc,
      hlogin]
    exact h.purchase_iff (Q := fun q => inRange start stop q.occurredAt = true ∧
      ((loginsInRange db' start stop).any fun g => g.userId = q.userId) = true ∧ q.userId = u)
  have hactive : (Metrics.conversionTotals db start stop).activeUsers
      = (Metrics.conversionTotals db' start stop).activeUsers := h.uniqueLoginUsers
  generalize Metrics.conversionTotals db start stop = totals at hset hactive ⊢
  generalize Metrics.conversionTotals db' start stop = totals' at hset hactive ⊢
  cases totals
  cases totals'
  simp only at hset hactive
  rw [hset, hactive]

end SameEvidence

/-- **The metrics read nothing else.** -/
theorem sameMetrics_of_sameEvidence {db db' : Tables} (fl : ℚ → ℚ) (collation : Collation)
    (h : SameEvidence db db') : SameMetrics fl collation db db' := by
  refine ⟨fun query => ?_, fun now query => ?_, fun currency query => ?_, fun query => ?_,
    fun eventType query => ?_⟩
  · simp only [getDau, dauByDay_eq, h.activeUsers, h.uniqueLoginUsers]
  · simp only [getRetention, retentionByCohort_eq, h.newUsers, h.returnedUsers]
  · simp only [getRevenue, revenueByDay_eq, h.revenueOn, h.activeUsers, h.revenueTotal,
      h.uniqueLoginUsers]
  · simp only [getPurchaseConversion, conversionByDay_eq, h.activeUsers, h.payingUsers,
      h.conversionTotals]
  · simp only [getEngagement, engagementByDayType_eq, h.activeUsers, h.engagedUsers]

end Metrics
