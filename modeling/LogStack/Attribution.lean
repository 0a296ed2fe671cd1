/-
The day on which an event counts.

The text of an `occurred_at` denotes an instant, to any precision. The server reads it to the
microsecond, and the column `TIMESTAMPTZ(3)` holds the millisecond nearest to that: perhaps the
midnight after the instant.  A text that the server reads as another instant may count on any day.

* `RoundingPostgres` — the server reads microseconds, and the column rounds them;
* `KeepsDay` — what the server reads in a text is nearest to a millisecond of its day;
* `CountedOnItsDay` — stored in any database, the event adds an entry of its day to the ledger;
* `attribution` — the events for which this holds;
* `counted_next_day` — an accepted event that counts on the next day.
-/
import LogStack.ColumnDomains
import LogStack.DayLedger
import LogStack.IsoTime

open Ingestion KeyedInsert Relational Calendar

namespace Metrics

/-! ### Instants and columns -/

/-- A server that reads texts to the microsecond, and whose `TIMESTAMPTZ(3)` holds a nearest
millisecond. -/
structure RoundingPostgres extends Postgres where
  micros : JsString → Option ℤ
  roundMs : ℤ → ℤ
  nearest : ∀ u, |1000 * roundMs u - u| ≤ 500
  timestamptz_eq : ∀ s, timestamptz s = (micros s).map roundMs

/-- The UTC day of an instant. -/
def instantDay (t : ℚ) : ℤ := ⌊t / DAY_MS⌋

def nextMidnight (t : ℚ) : ℚ := (instantDay t + 1) * DAY_MS

/-- The server reads microseconds whose nearest millisecond is not before the day of `t`, and
before the next: when two are equally near, the one that it rounds to. -/
def KeepsDay (P : RoundingPostgres) (s : JsString) (t : ℚ) : Prop :=
  ∃ u, P.micros s = some u ∧
    (1000 * (instantDay t * DAY_MS) < u + 500 ∨
      1000 * (instantDay t * DAY_MS) = u + 500 ∧ u ≤ 1000 * P.roundMs u) ∧
    (u + 500 < 1000 * ((instantDay t + 1) * DAY_MS) ∨
      u + 500 = 1000 * ((instantDay t + 1) * DAY_MS) ∧ 1000 * P.roundMs u ≤ u)

/-- The server reads a text to the microsecond nearest to the instant that it denotes. -/
def ReadsNearest (P : RoundingPostgres) (s : JsString) : Prop :=
  ∀ t u, isoInstant s = some t → P.micros s = some u → |u - 1000 * t| ≤ 1 / 2

section Days

variable {P : RoundingPostgres} {t : ℚ} {d start stop : ℤ}

theorem instantDay_eq_iff : instantDay t = d ↔ (d : ℚ) * DAY_MS ≤ t ∧ t < (d + 1) * DAY_MS := by
  have hday : (0 : ℚ) < (DAY_MS : ℤ) := by norm_num [DAY_MS]
  rw [instantDay, Int.floor_eq_iff, le_div_iff₀ hday, div_lt_iff₀ hday]

theorem utcDay_eq_iff {ms : ℤ} : utcDay ms = d ↔ d * DAY_MS ≤ ms ∧ ms < (d + 1) * DAY_MS := by
  rw [utcDay, DAY_MS]
  omega

/-- The range of a request, as instants. -/
theorem instant_inRange : ((start : ℚ) * DAY_MS ≤ t ∧ t < (stop + 1) * DAY_MS) ↔
    start ≤ instantDay t ∧ instantDay t ≤ stop := by
  have hday : (0 : ℚ) < (DAY_MS : ℤ) := by norm_num [DAY_MS]
  rw [instantDay, Int.le_floor, le_div_iff₀ hday, ← Int.lt_add_one_iff, Int.floor_lt,
    div_lt_iff₀ hday]
  push_cast
  exact Iff.rfl

/-- **Rounding keeps the day** of just these texts. -/
theorem utcDay_roundMs_iff {s : JsString} {u : ℤ} (hu : P.micros s = some u) :
    utcDay (P.roundMs u) = instantDay t ↔ KeepsDay P s t := by
  obtain ⟨hbelow, habove⟩ := abs_le.mp (P.nearest u)
  have hkeeps : KeepsDay P s t ↔
      (1000 * (instantDay t * DAY_MS) < u + 500 ∨
        1000 * (instantDay t * DAY_MS) = u + 500 ∧ u ≤ 1000 * P.roundMs u) ∧
      (u + 500 < 1000 * ((instantDay t + 1) * DAY_MS) ∨
        u + 500 = 1000 * ((instantDay t + 1) * DAY_MS) ∧ 1000 * P.roundMs u ≤ u) := by
    rw [KeepsDay, hu]
    constructor
    · rintro ⟨v, hv, h⟩
      obtain rfl := Option.some.inj hv
      exact h
    · exact fun h => ⟨u, rfl, h⟩
  rw [utcDay_eq_iff, hkeeps]
  generalize instantDay t * DAY_MS = low, (instantDay t + 1) * DAY_MS = high
  constructor
  · rintro ⟨hlow, hhigh⟩
    constructor
    · omega
    · omega
  · rintro ⟨hlow, hhigh⟩
    constructor
    · omega
    · omega

/-- A text that is read well keeps its day up to half a millisecond before midnight, give or take
half a microsecond. -/
theorem keepsDay_of_readsNearest {s : JsString} {u : ℤ} (hdenotes : isoInstant s = some t)
    (hu : P.micros s = some u) (hnearest : ReadsNearest P s) :
    (t + 1 / 2 + 1 / 2000 < nextMidnight t → KeepsDay P s t) ∧
      (nextMidnight t + 1 / 2000 < t + 1 / 2 → ¬KeepsDay P s t) := by
  obtain ⟨hlow, -⟩ := (instantDay_eq_iff (t := t)).mp rfl
  obtain ⟨hbelow, habove⟩ := abs_le.mp (hnearest t u hdenotes hu)
  constructor
  · intro hearly
    refine ⟨u, hu, .inl ?_, .inl ?_⟩
    · have hcast : ((1000 * (instantDay t * DAY_MS) : ℤ) : ℚ) < ((u + 500 : ℤ) : ℚ) := by
        push_cast
        linarith
      exact Int.cast_lt.mp hcast
    · have hcast : ((u + 500 : ℤ) : ℚ) < ((1000 * ((instantDay t + 1) * DAY_MS) : ℤ) : ℚ) := by
        rw [nextMidnight] at hearly
        push_cast
        linarith
      exact Int.cast_lt.mp hcast
  · rintro hlate ⟨v, hv, -, hkept⟩
    obtain rfl := Option.some.inj (hu.symm.trans hv)
    have hcast : ((1000 * ((instantDay t + 1) * DAY_MS) : ℤ) : ℚ) < ((u + 500 : ℤ) : ℚ) := by
      rw [nextMidnight] at hlate
      push_cast
      linarith
    have hint := Int.cast_lt.mp hcast
    omega

end Days

/-! ### Storing one event -/

/-- The entries of a row of `game_events` and of its purchase, on a day. -/
def Ledger.record (L : Ledger) (g : GameEventRow) (purchases : List PurchaseRow) (day : ℤ) :
    Ledger where
  activities := L.activities ++ [⟨g.eventType, day, g.userId⟩]
  payments := L.payments ++ purchases.map fun p => ⟨day, p.userId, p.amountMinor, p.currency⟩

/-- Whatever is stored already, the event is stored with its row; every query then counts it as
an event of the day that contains `t`, and a range contains its row when it contains `t`. -/
def CountedOnItsDay (P : RoundingPostgres) (e : NormalizedEvent) (t : ℚ) : Prop :=
  ∀ db : Database, e.eventId ∉ db.eventIds → ∃ g result db',
    gameEventRow P.toPostgres e = some g ∧
      storeBatch P.toPostgres [e] db.toTables = some (result, db') ∧
      (∀ collation start stop, figures collation db' start stop =
        ((ledger db.toTables).record g (newPurchases P.toPostgres db.toTables [e])
          (instantDay t)).figures collation start stop) ∧
      ∀ start stop : ℤ, inRange start stop g.occurredAt = true ↔
        (start : ℚ) * DAY_MS ≤ t ∧ t < (stop + 1) * DAY_MS

section Store

variable {pg : Postgres} {e : NormalizedEvent} {db : Database}

/-- A new event whose values fit is stored. -/
theorem storeBatch_single (hcanon : e.eventId.toLowerCase = e.eventId) (hdomain : InDomain pg e)
    (hnew : e.eventId ∉ db.eventIds) : ∃ result g, gameEventRow pg e = some g ∧
      storeBatch pg [e] db.toTables = some (result, ⟨db.gameEvents ++ [g],
        db.purchases ++ newPurchases pg db.toTables [e]⟩) := by
  obtain ⟨g, hg⟩ := Option.isSome_iff_exists.mp hdomain.1
  have hnodup : ([e].map NormalizedEvent.eventId).Nodup := List.nodup_singleton _
  have hevents : newEvents db.toTables [e] = [e] := by
    rw [newEvents, firstNew_eq_filter hnodup]
    simpa using hnew
  have hone : ∀ x ∈ [e], x = e := fun x hx => List.mem_singleton.mp hx
  have hcanon' : ∀ x ∈ [e], x.eventId.toLowerCase = x.eventId := by
    intro x hx
    rw [hone x hx, hcanon]
  have hstorable : Storable pg db.toTables [e] := by
    refine ⟨fun x hx => ?_, fun x hx => ?_⟩
    · rw [hone x hx]
      exact hdomain.1
    · rw [hevents] at hx
      rw [hone x hx]
      exact hdomain.2
  have hstore := storeBatch_of_storable hcanon' hnodup hstorable
  rw [hevents, Tables.store, List.filterMap_cons_some hg] at hstore
  exact ⟨_, g, hg, hstore⟩

/-- A purchase that is stored has the time of its event. -/
theorem occurredAt_newPurchases {p : PurchaseRow} {ms : ℤ}
    (hms : pg.timestamptz e.occurredAt = some ms) (hp : p ∈ newPurchases pg db.toTables [e]) :
    p.occurredAt = ms := by
  have hmem := firstNew_sublist.mem hp
  obtain ⟨x, hx, hbound⟩ := List.mem_filterMap.mp hmem
  obtain rfl := List.mem_singleton.mp hx
  obtain ⟨purchase, -, hrow⟩ := Option.bind_eq_some_iff.mp hbound
  have htime := (columns_of_purchaseRow hrow).2.2.1
  rw [hms] at htime
  exact (Option.some.inj htime).symm

end Store

section Attribution

variable {P : RoundingPostgres} {e : NormalizedEvent} {t : ℚ}

/-- The server reads something in the time of an event that fits. -/
theorem exists_micros (hdomain : InDomain P.toPostgres e) :
    ∃ u, P.micros e.occurredAt = some u := by
  obtain ⟨g, hg⟩ := Option.isSome_iff_exists.mp hdomain.1
  have hcolumn := (columns_of_gameEventRow hg).2.2.2
  rw [P.timestamptz_eq] at hcolumn
  obtain ⟨u, hu, -⟩ := Option.map_eq_some_iff.mp hcolumn
  exact ⟨u, hu⟩

theorem countedOnItsDay_iff (hcanon : e.eventId.toLowerCase = e.eventId)
    (hdomain : InDomain P.toPostgres e) :
    CountedOnItsDay P e t ↔ KeepsDay P e.occurredAt t := by
  obtain ⟨u, hu⟩ := exists_micros hdomain
  have hms : P.timestamptz e.occurredAt = some (P.roundMs u) := by
    rw [P.timestamptz_eq, hu, Option.map_some]
  have htime : ∀ g, gameEventRow P.toPostgres e = some g → g.occurredAt = P.roundMs u := by
    intro g hg
    have hcolumn := (columns_of_gameEventRow hg).2.2.2
    rw [hms] at hcolumn
    exact (Option.some.inj hcolumn).symm
  rw [← utcDay_roundMs_iff hu]
  constructor
  · intro h
    obtain ⟨g, result, db', hg, -, -, hrange⟩ := h Database.empty (List.not_mem_nil)
    -- the range of one day tells whether the row is on it
    have hday := hrange (instantDay t) (instantDay t)
    rw [instant_inRange, inRange_iff, htime g hg] at hday
    have hin := hday.mpr ⟨le_rfl, le_rfl⟩
    omega
  · intro hday db hnew
    obtain ⟨result, g, hg, hstore⟩ := storeBatch_single hcanon hdomain hnew
    refine ⟨g, result, _, hg, hstore, fun collation start stop => ?_, fun start stop => ?_⟩
    · have hledger : ledger ⟨db.gameEvents ++ [g],
          db.purchases ++ newPurchases P.toPostgres db.toTables [e]⟩
            = (ledger db.toTables).record g (newPurchases P.toPostgres db.toTables [e])
              (instantDay t) := by
        have hpayments : (newPurchases P.toPostgres db.toTables [e]).map
              (fun p => (⟨utcDay p.occurredAt, p.userId, p.amountMinor, p.currency⟩ : DayPayment))
            = (newPurchases P.toPostgres db.toTables [e]).map
              fun p => ⟨instantDay t, p.userId, p.amountMinor, p.currency⟩ :=
          List.map_congr_left fun p hp => by rw [occurredAt_newPurchases hms hp, hday]
        rw [ledger, Ledger.record, ledger, List.map_append, List.map_append, hpayments,
          List.map_singleton, htime g hg, hday]
      rw [figures_eq, hledger]
    · rw [instant_inRange, inRange_iff, htime g hg, hday]

/-- **An accepted event counts on the day in which it occurred** when what the server reads in its
text keeps the day of what the text denotes, and only then: for a text that is read well, up to
half a millisecond before midnight. -/
theorem attribution (P : RoundingPostgres) (L : Libraries) (raw : Json) (e : NormalizedEvent)
    (t : ℚ) (hvalid : validateEvent L raw = some (.accepted e))
    (hdenotes : isoInstant e.occurredAt = some t) (hdomain : InDomain P.toPostgres e) :
    (CountedOnItsDay P e t ↔ KeepsDay P e.occurredAt t) ∧
      (ReadsNearest P e.occurredAt →
        (t + 1 / 2 + 1 / 2000 < nextMidnight t → CountedOnItsDay P e t) ∧
        (nextMidnight t + 1 / 2000 < t + 1 / 2 → ¬CountedOnItsDay P e t)) := by
  have hiff : CountedOnItsDay P e t ↔ KeepsDay P e.occurredAt t :=
    countedOnItsDay_iff (canonical_of_acceptedEvent? (acceptedEvent?_eq_some.mpr hvalid)) hdomain
  obtain ⟨u, hu⟩ := exists_micros hdomain
  refine ⟨hiff, fun hnearest => ?_⟩
  rw [hiff]
  exact keepsDay_of_readsNearest hdenotes hu hnearest

end Attribution

/-! ### A login just before midnight -/

/-- The microsecond nearest to an instant. -/
def nearestMicro (t : ℚ) : ℤ := ⌊1000 * t + 1 / 2⌋

/-- A server that reads every text well, in the years from 2000 on, where halves round up. -/
def isoPostgres : RoundingPostgres where
  written := id
  written_eq := samplePostgres.written_eq
  written_mono := fun _ _ h => h
  timestamptz := fun s => ((isoInstant s).map nearestMicro).map fun u => (u + 500) / 1000
  micros := fun s => (isoInstant s).map nearestMicro
  roundMs := fun u => (u + 500) / 1000
  nearest := fun u => abs_le.mpr ⟨by omega, by omega⟩
  timestamptz_eq := fun _ => rfl

theorem isoPostgres_micros {s : JsString} {t : ℚ} (h : isoInstant s = some t) :
    isoPostgres.micros s = some (nearestMicro t) :=
  (congrArg (Option.map nearestMicro) h :)

theorem isoPostgres_readsNearest (s : JsString) : ReadsNearest isoPostgres s := by
  intro t u hdenotes hu
  obtain rfl := Option.some.inj ((isoPostgres_micros hdenotes).symm.trans hu)
  have hle := Int.floor_le (1000 * t + 1 / 2)
  have hlt := Int.lt_floor_add_one (1000 * t + 1 / 2)
  rw [← nearestMicro] at hle hlt
  exact abs_le.mpr ⟨by linarith, by linarith⟩

def isoChecks : StringChecks := { sampleChecks with isISO8601 := fun _ s => (isoInstant s).isSome }

def isoErrors (dto : Dto) (value : Json) : List ValidationError :=
  (dto.filter fun property => property.2.any fun c =>
    !c.holds isoChecks (value.get? property.1)).map fun property =>
      ⟨[(property.1, property.1 ++ js " is not valid")], []⟩

/-- The sample libraries with a check that reads times to any precision. -/
def isoLibraries : Libraries where
  toStringChecks := isoChecks
  plainToInstance := sampleLibraries.plainToInstance
  copied := sampleLibraries.copied
  copyOf := sampleLibraries.copyOf
  copied_copyOf := sampleLibraries.copied_copyOf
  get?_plainToInstance := sampleLibraries.get?_plainToInstance
  copyOf_arr := sampleLibraries.copyOf_arr
  validateSync := isoErrors
  validateSync_eq_nil := by
    intro dto value
    simp [isoErrors, Dto.holds]

/-- A raw login at a time. -/
def loginAt (occurredAt : JsString) : Json := .obj [
  (js "instance_id", .str (js "11111111-1111-4111-8111-111111111111")),
  (js "event_id", .str (js "33333333-3333-4333-8333-333333333333")),
  (js "event_type", .str EventType.sessionLogin.name),
  (js "user_id", .nat 7),
  (js "character_id", .nat 70),
  (js "session_id", .str (js "session")),
  (js "channel_id", .str (js "channel")),
  (js "payload", .obj []),
  (js "occurred_at", .str occurredAt)]

/-- 2026-01-04, 0.4 ms before its end. -/
def lateInstant : ℚ := 20458 * 86400000 - 4 / 10

def lateText : JsString := js "2026-01-04T23:59:59.9996Z"

/-- 0.6 ms before the end of the day, in another zone. -/
def keptInstant : ℚ := 20458 * 86400000 - 6 / 10

def keptText : JsString := js "2026-01-05T08:59:59.9994+09:00"

/-- The login is accepted, and counts one day late. -/
theorem counted_next_day : ∃ e, validateEvent isoLibraries (loginAt lateText) = some (.accepted e) ∧
    isoInstant e.occurredAt = some lateInstant ∧ instantDay lateInstant = 20457 ∧
    ¬CountedOnItsDay isoPostgres e lateInstant ∧
    (storeBatch isoPostgres.toPostgres [e] Database.empty.toTables).map (fun stored =>
      (dauByDay stored.2 20457 20458).map DauDay.dau) = some [0, 1] := by
  obtain ⟨e, he, hinstant, hdomain, hdau⟩ : ∃ e,
      validateEvent isoLibraries (loginAt lateText) = some (.accepted e) ∧
        isoInstant e.occurredAt = some lateInstant ∧ InDomain isoPostgres.toPostgres e ∧
        (storeBatch isoPostgres.toPostgres [e] Database.empty.toTables).map (fun stored =>
          (generateSeries 20457 20458).map fun d => (activeUsers stored.2 d).card) = some [0, 1] :=
    exists_accepted (by decide +kernel)
  have hlate : ¬KeepsDay isoPostgres e.occurredAt lateInstant :=
    (keepsDay_of_readsNearest hinstant (isoPostgres_micros hinstant)
      (isoPostgres_readsNearest _)).2 (by decide +kernel)
  have hnot : ¬CountedOnItsDay isoPostgres e lateInstant := fun h =>
    hlate ((countedOnItsDay_iff (canonical_of_acceptedEvent? (acceptedEvent?_eq_some.mpr he))
      hdomain).mp h)
  refine ⟨e, he, hinstant, by decide +kernel, hnot, ?_⟩
  simp only [dauByDay_eq, List.map_map]
  exact hdau

theorem attribution_sample : ∃ e,
    validateEvent isoLibraries (loginAt keptText) = some (.accepted e) ∧
      isoInstant e.occurredAt = some keptInstant ∧
      CountedOnItsDay isoPostgres e keptInstant := by
  obtain ⟨e, he, hinstant, hdomain⟩ : ∃ e,
      validateEvent isoLibraries (loginAt keptText) = some (.accepted e) ∧
        isoInstant e.occurredAt = some keptInstant ∧ InDomain isoPostgres.toPostgres e :=
    exists_accepted (by decide +kernel)
  exact ⟨e, he, hinstant, ((attribution isoPostgres isoLibraries _ e _ he hinstant hdomain).2
    (isoPostgres_readsNearest _)).1 (by decide +kernel)⟩

end Metrics
