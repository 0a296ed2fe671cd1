/-
The metric queries.

Each query is written clause by clause over the rows of the two tables; `COUNT` and the like
are those of `Relational`.  Days are numbers, `YYYY-MM-DD` has been read before.

* `dauByDay`, `retentionByCohort`, `revenueByDay`, `conversionByDay`, `engagementByDayType` —
  one row for each calendar day of the range (and type);
* `uniqueLoginUsers`, `revenueTotal`, `conversionTotals` — the whole range.
-/
import LogStack.Calendar
import LogStack.Relational
import LogStack.Storage
import Mathlib.Algebra.BigOperators.Group.List.Basic

open Ingestion Relational Calendar

namespace Metrics

/-- `generate_series($1::date, $2::date, interval '1 day')::date`. -/
def generateSeries (start stop : ℤ) : List ℤ :=
  (List.range (stop + 1 - start).toNat).map fun k : ℕ => start + (k : ℤ)

/-- `occurred_at >= $1 AND occurred_at < $2 + 1`, both at midnight UTC. -/
def inRange (start stop occurredAt : ℤ) : Bool :=
  start * DAY_MS ≤ occurredAt && occurredAt < (stop + 1) * DAY_MS

/-- The order of text in the database. -/
structure Collation where
  le : JsString → JsString → Bool
  total : ∀ s t, le s t || le t s
  trans : ∀ s t u, le s t → le t u → le s u
  antisymm : ∀ s t, le s t → le t s → s = t

variable (db : Tables) (start stop : ℤ)

/-- `event_type = 'session_login'`. -/
def isLogin (g : GameEventRow) : Bool := g.eventType = EventType.sessionLogin.name

def logins : List GameEventRow := db.gameEvents.filter isLogin

def loginsInRange : List GameEventRow :=
  (logins db).filter fun g => inRange start stop g.occurredAt

/-- `SELECT DISTINCT (occurred_at AT TIME ZONE 'UTC')::date AS day, user_id` of the logins. -/
def dailyActive : List (ℤ × ℤ) :=
  distinct ((loginsInRange db start stop).map fun g => (utcDay g.occurredAt, g.userId))

/-! ### Daily active users -/

structure DauDay where
  day : ℤ
  dau : ℕ

def dauByDay : List DauDay :=
  let days := generateSeries start stop
  let joined := leftJoin (fun d (l : ℤ × ℤ) => l.1 = d) days (dailyActive db start stop)
  orderBy (fun r r' => r.day ≤ r'.day)
    ((groupBy Prod.fst (countSome fun r => r.2.map Prod.snd) joined).map fun g => ⟨g.1, g.2⟩)

def uniqueLoginUsers : ℕ := countDistinct GameEventRow.userId (loginsInRange db start stop)

/-! ### Retention -/

structure CohortDay where
  cohortDate : ℤ
  newUsers : ℕ
  returnedD1 : ℕ
  returnedD7 : ℕ
  returnedD30 : ℕ

/-- The first login of each user, over the whole history. -/
def firstLogin : List (ℤ × Option ℤ) :=
  groupBy GameEventRow.userId (fun rows => (rows.map GameEventRow.occurredAt).min?) (logins db)

/-- The users whose first login falls in the range, with its day. -/
def cohort : List (ℤ × ℤ) :=
  (firstLogin db).filterMap fun f =>
    (f.2.filter (inRange start stop)).map fun firstAt => (f.1, utcDay firstAt)

def loginDays : List (ℤ × ℤ) :=
  distinct ((logins db).map fun g => (g.userId, utcDay g.occurredAt))

/-- `l.user_id = c.user_id AND l.day = c.cohort_date + n`. -/
def returnsAfter (n : ℤ) (c l : ℤ × ℤ) : Bool := l.1 = c.1 && l.2 = c.2 + n

def retentionByCohort : List CohortDay :=
  let days := generateSeries start stop
  let d1 := leftJoin (returnsAfter 1) (cohort db start stop) (loginDays db)
  let d7 := leftJoin (fun r => returnsAfter 7 r.1) d1 (loginDays db)
  let d30 := leftJoin (fun r => returnsAfter 30 r.1.1) d7 (loginDays db)
  let perCohort := groupBy (fun r => r.1.1.1.2) (fun rows =>
    (rows.length, countSome (fun r => r.1.1.2) rows, countSome (fun r => r.1.2) rows,
      countSome (fun r => r.2) rows)) d30
  orderBy (fun r r' => r.cohortDate ≤ r'.cohortDate)
    ((leftJoin (fun d p => p.1 = d) days perCohort).map fun r => {
      cohortDate := r.1
      newUsers := (r.2.map fun p => p.2.1).getD 0
      returnedD1 := (r.2.map fun p => p.2.2.1).getD 0
      returnedD7 := (r.2.map fun p => p.2.2.2.1).getD 0
      returnedD30 := (r.2.map fun p => p.2.2.2.2).getD 0 })

/-! ### Revenue -/

structure RevenueDay where
  day : ℤ
  revenueMinor : ℤ
  activeUsers : ℕ

def purchasesInRange : List PurchaseRow :=
  db.purchases.filter fun p => inRange start stop p.occurredAt

def revenueByDay (currency : JsString) : List RevenueDay :=
  let days := generateSeries start stop
  let dailyActive := groupBy (fun g => utcDay g.occurredAt)
    (countDistinct GameEventRow.userId) (loginsInRange db start stop)
  let dailyRevenue := groupBy (fun p => utcDay p.occurredAt)
    (fun rows => (rows.map PurchaseRow.amountMinor).sum)
    ((purchasesInRange db start stop).filter fun p => p.currency = currency)
  let joined := leftJoin (fun r a => a.1 = r.1)
    (leftJoin (fun d r => r.1 = d) days dailyRevenue) dailyActive
  orderBy (fun r r' => r.day ≤ r'.day) (joined.map fun r => {
    day := r.1.1
    revenueMinor := (r.1.2.map fun p => p.2).getD 0
    activeUsers := (r.2.map fun a => a.2).getD 0 })

/-- `COALESCE(SUM(amount_minor), 0)`. -/
def revenueTotal (currency : JsString) : ℤ :=
  (((purchasesInRange db start stop).filter fun p => p.currency = currency).map
    PurchaseRow.amountMinor).sum

/-! ### Purchase conversion -/

structure ConversionDay where
  day : ℤ
  payingUsers : ℕ
  activeUsers : ℕ

def conversionByDay : List ConversionDay :=
  let days := generateSeries start stop
  let dailyPaying := distinct
    ((purchasesInRange db start stop).map fun p => (utcDay p.occurredAt, p.userId))
  let counts := groupBy (fun r => r.1.1)
    (fun rows => (rows.length, countSome (fun r => r.2) rows))
    (leftJoin (fun a p => p.1 = a.1 && p.2 = a.2) (dailyActive db start stop) dailyPaying)
  orderBy (fun r r' => r.day ≤ r'.day)
    ((leftJoin (fun d c => c.1 = d) days counts).map fun r => {
      day := r.1
      payingUsers := (r.2.map fun c => c.2.2).getD 0
      activeUsers := (r.2.map fun c => c.2.1).getD 0 })

structure ConversionTotals where
  payingUsers : ℕ
  activeUsers : ℕ

def conversionTotals : ConversionTotals where
  payingUsers := countDistinct PurchaseRow.userId ((purchasesInRange db start stop).filter fun p =>
    (loginsInRange db start stop).any fun g => g.userId = p.userId)
  activeUsers := countDistinct GameEventRow.userId (loginsInRange db start stop)

/-! ### Engagement -/

structure EngagementDay where
  day : ℤ
  eventType : JsString
  engagedUsers : ℕ
  dau : ℕ

def engagementByDayType (collation : Collation) (eventTypes : List JsString) :
    List EngagementDay :=
  let days := generateSeries start stop
  let active := dailyActive db start stop
  let dailyDau := groupBy Prod.fst List.length active
  let engaged := distinct ((db.gameEvents.filter fun g =>
      decide (g.eventType ∈ eventTypes) && inRange start stop g.occurredAt).map fun g =>
    (utcDay g.occurredAt, g.eventType, g.userId))
  let counts := groupBy (fun r => (r.1.1, r.1.2.1)) List.length
    (innerJoin (fun e a => a.1 = e.1 && a.2 = e.2.2) engaged active)
  let joined := leftJoin (fun r u => u.1 = r.1.1)
    (leftJoin (fun dt c => c.1.1 = dt.1 && c.1.2 = dt.2) (days ×ˢ eventTypes) counts) dailyDau
  orderBy (fun r r' => r.day < r'.day || r.day = r'.day && collation.le r.eventType r'.eventType)
    (joined.map fun r => {
      day := r.1.1.1
      eventType := r.1.1.2
      engagedUsers := (r.1.2.map fun c => c.2).getD 0
      dau := (r.2.map fun u => u.2).getD 0 })

end Metrics
