/-
Metrics do not depend on how events arrived.

* `delivered` — the valid events of the batches that were answered 200, in the order and as
  often as they arrived;
* `Reflects` — tables that hold these events, and a payment for each order among them; every
  history of batches leads to such tables;
* `arrival_order` — two histories that deliver the same events have the same metrics, when
  purchases that are stored as one order agree.
-/
import LogStack.BatchRefinement
import LogStack.ColumnDomains
import LogStack.MetricEvidence
import Mathlib.Data.List.Lex

open Ingestion KeyedInsert

namespace Metrics

variable (L : Libraries) (pg : Postgres)

/-- The valid events that a history of batches delivers, from some tables on. -/
def deliveredFrom (db : Database) (batches : List Batch) : List NormalizedEvent :=
  ((exchanges L pg db batches).flatMap Exchange.delivered).filterMap (acceptedEvent? L)

def delivered (batches : List Batch) : List NormalizedEvent :=
  deliveredFrom L pg Database.empty batches

variable {L pg}

/-- Two purchases agree on who paid what and when. -/
def SamePayment (e e' : NormalizedEvent) (p p' : Purchase) : Prop :=
  e.userId = e'.userId ∧ e.occurredAt = e'.occurredAt ∧ p.amountMinor = p'.amountMinor ∧
    p.currency = p'.currency

/-- Events with the same id are the same, and purchases of the same order agree. -/
structure Agreeing (events : List NormalizedEvent) : Prop where
  sameEvent : ∀ e ∈ events, ∀ e' ∈ events, e.eventId = e'.eventId → e = e'
  sameOrder : ∀ e ∈ events, ∀ e' ∈ events, ∀ p ∈ e.purchase, ∀ p' ∈ e'.purchase,
    p.orderId = p'.orderId → SamePayment e e' p p'

/-- Purchases of different orders agree as well, when their order ids are stored as the same
text. -/
def CollisionsAgree (events : List NormalizedEvent) : Prop :=
  ∀ e ∈ events, ∀ e' ∈ events, ∀ p ∈ e.purchase, ∀ p' ∈ e'.purchase, p.orderId ≠ p'.orderId →
    varchar? 64 p.orderId = varchar? 64 p'.orderId → SamePayment e e' p p'

theorem Agreeing.congr {events events' : List NormalizedEvent} (h : Agreeing events)
    (hsame : ∀ e, e ∈ events ↔ e ∈ events') : Agreeing events' := by
  refine ⟨fun e he e' he' => ?_, fun e he e' he' => ?_⟩
  · exact h.sameEvent e ((hsame e).mpr he) e' ((hsame e').mpr he')
  · exact h.sameOrder e ((hsame e).mpr he) e' ((hsame e').mpr he')

theorem CollisionsAgree.congr {events events' : List NormalizedEvent} (h : CollisionsAgree events)
    (hsame : ∀ e, e ∈ events ↔ e ∈ events') : CollisionsAgree events' :=
  fun e he e' he' => h e ((hsame e).mpr he) e' ((hsame e').mpr he')

/-! ### What the tables hold -/

/-- The tables hold the events, and for each purchase among them a payment of its order. -/
structure Reflects (pg : Postgres) (events : List NormalizedEvent) (db : Tables) : Prop where
  stored : ∀ e ∈ events, ∃ row ∈ db.gameEvents, gameEventRow pg e = some row
  event : ∀ row ∈ db.gameEvents, ∃ e ∈ events, gameEventRow pg e = some row
  paid : ∀ e ∈ events, e.purchase.isSome = true →
    ∃ q, boundPurchase pg e = some q ∧ q.orderId ∈ db.orderIds
  purchase : ∀ p ∈ db.purchases, ∃ e ∈ events, boundPurchase pg e = some p

variable {events accepted : List NormalizedEvent} {db : Tables}

theorem reflects_empty : Reflects pg [] Database.empty.toTables :=
  ⟨by simp, by simp [Database.empty], by simp, by simp [Database.empty]⟩

/-- A batch that commits adds its events: an id that is known belongs to the same event, and
that one has been stored with its payment. -/
theorem Reflects.store {all : List NormalizedEvent} (h : Reflects pg events db)
    (hsub : ∀ e ∈ events ++ accepted, e ∈ all)
    (hsame : ∀ e ∈ all, ∀ e' ∈ all, e.eventId = e'.eventId → e = e')
    (hcanon : ∀ e ∈ all, e.eventId.toLowerCase = e.eventId)
    (hrows : ∀ e ∈ newEvents db accepted, (gameEventRow pg e).isSome = true)
    (hbound : ∀ e ∈ newEvents db accepted, e.purchase.isSome = true →
      (boundPurchase pg e).isSome = true) :
    Reflects pg (events ++ accepted) (db.store pg (newEvents db accepted)) := by
  have hevents : ∀ e ∈ events, e ∈ all := fun e he => hsub e (List.mem_append_left _ he)
  have haccepted : ∀ e ∈ accepted, e ∈ all := fun e he => hsub e (List.mem_append_right _ he)
  have hnew : ∀ e ∈ newEvents db accepted, e ∈ accepted := fun e he => firstNew_sublist.mem he
  -- each accepted event has been stored before, or it is one of the new ones
  have hcases : ∀ e ∈ accepted, e ∈ events ∨ e ∈ newEvents db accepted := by
    intro e he
    rcases (mem_known_or he : e.eventId ∈ db.eventIds ∨ _) with hold | hmem
    · obtain ⟨row, hrow, hid⟩ := List.mem_map.mp hold
      obtain ⟨e', he', hrow'⟩ := h.event row hrow
      have hid' : e'.eventId = e.eventId := by
        rw [← hcanon e' (hevents e' he'), ← eventId_of_gameEventRow hrow', hid]
      exact .inl (hsame e' (hevents e' he') e (haccepted e he) hid' ▸ he')
    · obtain ⟨e', he', hid⟩ := List.mem_map.mp hmem
      exact .inr (hsame e' (haccepted e' (hnew e' he')) e (haccepted e he) hid ▸ he')
  have hstored : ∀ e ∈ newEvents db accepted,
      ∃ row ∈ (db.store pg (newEvents db accepted)).gameEvents, gameEventRow pg e = some row := by
    intro e he
    obtain ⟨row, hrow⟩ := Option.isSome_iff_exists.mp (hrows e he)
    exact ⟨row, List.mem_append_right _ (List.mem_filterMap.mpr ⟨e, he, hrow⟩), hrow⟩
  have hpaid : ∀ e ∈ newEvents db accepted, e.purchase.isSome = true → ∃ q,
      boundPurchase pg e = some q ∧
        q.orderId ∈ (db.store pg (newEvents db accepted)).orderIds := by
    intro e he hpurchase
    obtain ⟨q, hq⟩ := Option.isSome_iff_exists.mp (hbound e he hpurchase)
    refine ⟨q, hq, ?_⟩
    rw [Tables.orderIds, Tables.store, List.map_append, List.mem_append]
    exact mem_known_or (List.mem_filterMap.mpr ⟨e, he, hq⟩)
  refine ⟨fun e he => ?_, fun row hrow => ?_, fun e he hpurchase => ?_, fun p hp => ?_⟩
  · rcases List.mem_append.mp he with he | he
    · obtain ⟨row, hrow, hrow'⟩ := h.stored e he
      exact ⟨row, List.mem_append_left _ hrow, hrow'⟩
    · rcases hcases e he with he | he
      · obtain ⟨row, hrow, hrow'⟩ := h.stored e he
        exact ⟨row, List.mem_append_left _ hrow, hrow'⟩
      · exact hstored e he
  · rcases List.mem_append.mp hrow with hrow | hrow
    · obtain ⟨e, he, hrow'⟩ := h.event row hrow
      exact ⟨e, List.mem_append_left _ he, hrow'⟩
    · obtain ⟨e, he, hrow'⟩ := List.mem_filterMap.mp hrow
      exact ⟨e, List.mem_append_right _ (hnew e he), hrow'⟩
  · have hold : e ∈ events → ∃ q, boundPurchase pg e = some q ∧
        q.orderId ∈ (db.store pg (newEvents db accepted)).orderIds := by
      intro he
      obtain ⟨q, hq, horder⟩ := h.paid e he hpurchase
      refine ⟨q, hq, ?_⟩
      rw [Tables.orderIds, Tables.store, List.map_append]
      exact List.mem_append_left _ horder
    rcases List.mem_append.mp he with he | he
    · exact hold he
    · exact (hcases e he).elim hold fun he => hpaid e he hpurchase
  · rcases List.mem_append.mp hp with hp | hp
    · obtain ⟨e, he, hp'⟩ := h.purchase p hp
      exact ⟨e, List.mem_append_left _ he, hp'⟩
    · obtain ⟨e, he, hp'⟩ := List.mem_filterMap.mp (firstNew_sublist.mem hp)
      exact ⟨e, List.mem_append_right _ (hnew e he), hp'⟩

/-- The purchases that a committed batch stores have rows. -/
theorem isSome_boundPurchase_of_commits {db : Database} {reachable : Bool}
    (h : Commits pg reachable db.toTables accepted) :
    ∀ e ∈ newEvents db.toTables accepted, e.purchase.isSome = true →
      (boundPurchase pg e).isSome = true := by
  intro e he
  rcases h with rfl | ⟨-, hstorable⟩
  · exact absurd he List.not_mem_nil
  · exact hstorable.purchases e ((newEvents_unique db.toTables accepted).symm ▸ he)

theorem deliveredFrom_cons {db : Database} {b : Batch} {batches : List Batch} :
    deliveredFrom L pg db (b :: batches)
      = (serve L pg db b).delivered.filterMap (acceptedEvent? L)
        ++ deliveredFrom L pg (serve L pg db b).after batches := by
  rw [deliveredFrom, exchanges, List.flatMap_cons, List.filterMap_append, deliveredFrom]

/-- By induction on the batches. -/
theorem reflects_ingestAll {all : List NormalizedEvent} {db : Database} {batches : List Batch}
    (h : Reflects pg events db.toTables)
    (hsub : ∀ e ∈ events ++ deliveredFrom L pg db batches, e ∈ all)
    (hsame : ∀ e ∈ all, ∀ e' ∈ all, e.eventId = e'.eventId → e = e')
    (hcanon : ∀ e ∈ all, e.eventId.toLowerCase = e.eventId) :
    Reflects pg (events ++ deliveredFrom L pg db batches)
      (ingestAll L pg db batches).toTables := by
  induction batches generalizing db events with
  | nil =>
    rw [deliveredFrom, exchanges, List.flatMap_nil, List.filterMap_nil, List.append_nil]
    exact h
  | cons b batches ih =>
    rw [deliveredFrom_cons, ← List.append_assoc] at hsub ⊢
    refine ih ?_ hsub
    rcases serve_cases L pg db b with
      ⟨accepted, rejected, hvalid, hcommits, hanswer, hafter⟩ | ⟨hanswer, hafter⟩
    · have hdelivered : (serve L pg db b).delivered.filterMap (acceptedEvent? L) = accepted := by
        rw [Exchange.delivered, hanswer]
        exact (accepted_eq hvalid).symm
      rw [hdelivered] at hsub ⊢
      rw [hafter]
      exact h.store (fun e he => hsub e (List.mem_append_left _ he)) hsame hcanon
        (isSome_gameEventRow_of_commits hcommits) (isSome_boundPurchase_of_commits hcommits)
    · have hdelivered : (serve L pg db b).delivered = [] := by
        cases hcase : (serve L pg db b).answer with
        | ok response => exact absurd hcase (hanswer response)
        | unavailable => rw [Exchange.delivered, hcase]
        | failed => rw [Exchange.delivered, hcase]
      rw [hdelivered, List.filterMap_nil, List.append_nil, hafter]
      exact h

theorem canonical_delivered {batches : List Batch} :
    ∀ e ∈ delivered L pg batches, e.eventId.toLowerCase = e.eventId := by
  intro e he
  obtain ⟨raw, -, hraw⟩ := List.mem_filterMap.mp he
  exact canonical_of_acceptedEvent? hraw

/-- Every history leaves tables that hold what it has delivered. -/
theorem reflects_delivered {batches : List Batch}
    (h : Agreeing (delivered L pg batches)) :
    Reflects pg (delivered L pg batches) (ingestAll L pg Database.empty batches).toTables :=
  reflects_ingestAll reflects_empty (fun _ he => he) h.sameEvent canonical_delivered

/-! ### The same evidence -/

/-- Payments of one stored order agree. -/
theorem payment_eq (h : Agreeing events) (hcollide : CollisionsAgree events)
    {e e' : NormalizedEvent}
    (he : e ∈ events) (he' : e' ∈ events) {q q' : PurchaseRow}
    (hq : boundPurchase pg e = some q) (hq' : boundPurchase pg e' = some q')
    (horder : q.orderId = q'.orderId) : q.payment = q'.payment := by
  obtain ⟨p, hp, hrow⟩ := Option.bind_eq_some_iff.mp hq
  obtain ⟨p', hp', hrow'⟩ := Option.bind_eq_some_iff.mp hq'
  obtain ⟨hid, huser, htime, hamount, hcurrency⟩ := columns_of_purchaseRow hrow
  obtain ⟨hid', huser', htime', hamount', hcurrency'⟩ := columns_of_purchaseRow hrow'
  have hsame : SamePayment e e' p p' := by
    by_cases hraw : p.orderId = p'.orderId
    · exact h.sameOrder e he e' he' p hp p' hp' hraw
    · exact hcollide e he e' he' p hp p' hp' hraw (by rw [hid, hid', horder])
  obtain ⟨hsameUser, hsameTime, hsameAmount, hsameCurrency⟩ := hsame
  rw [hsameUser, huser', Option.some.injEq] at huser
  rw [hsameTime, htime', Option.some.injEq] at htime
  rw [hsameAmount, hamount', Option.some.injEq] at hamount
  rw [hsameCurrency, hcurrency', Option.some.injEq] at hcurrency
  rw [PurchaseRow.payment, PurchaseRow.payment, huser, htime, hamount, hcurrency]

/-- The order ids and payments in the table are those of the events. -/
theorem mem_payments (h : Reflects pg events db) (hagree : Agreeing events)
    (hcollide : CollisionsAgree events) {x : JsString × Payment} :
    x ∈ db.purchases.map (fun p => (p.orderId, p.payment)) ↔
      ∃ e ∈ events, ∃ q, boundPurchase pg e = some q ∧ (q.orderId, q.payment) = x := by
  constructor
  · intro hx
    obtain ⟨p, hp, rfl⟩ := List.mem_map.mp hx
    obtain ⟨e, he, hbound⟩ := h.purchase p hp
    exact ⟨e, he, p, hbound, rfl⟩
  · rintro ⟨e, he, q, hq, rfl⟩
    have hpurchase : e.purchase.isSome = true := by
      obtain ⟨p, hp, -⟩ := Option.bind_eq_some_iff.mp hq
      rw [hp, Option.isSome_some]
    obtain ⟨q', hq', horder⟩ := h.paid e he hpurchase
    obtain rfl := Option.some.inj (hq.symm.trans hq')
    obtain ⟨p, hp, hsame⟩ := List.mem_map.mp horder
    obtain ⟨e', he', hbound⟩ := h.purchase p hp
    refine List.mem_map.mpr ⟨p, hp, ?_⟩
    rw [hsame, payment_eq hagree hcollide he' he hbound hq hsame]

theorem mem_sightings (h : Reflects pg events db) {x : JsString × ℤ × ℤ} :
    x ∈ db.gameEvents.map GameEventRow.sighting ↔
      ∃ e ∈ events, ∃ row, gameEventRow pg e = some row ∧ row.sighting = x := by
  constructor
  · intro hx
    obtain ⟨row, hrow, rfl⟩ := List.mem_map.mp hx
    obtain ⟨e, he, hbound⟩ := h.event row hrow
    exact ⟨e, he, row, hbound, rfl⟩
  · rintro ⟨e, he, row, hrow, rfl⟩
    obtain ⟨row', hrow', hbound⟩ := h.stored e he
    obtain rfl := Option.some.inj (hrow.symm.trans hbound)
    exact List.mem_map_of_mem hrow'

theorem sameEvidence_of_reflects {events' : List NormalizedEvent} {db db' : Database}
    (h : Reflects pg events db.toTables) (h' : Reflects pg events' db'.toTables)
    (hsame : ∀ e, e ∈ events ↔ e ∈ events') (hagree : Agreeing events)
    (hcollide : CollisionsAgree events) : SameEvidence db.toTables db'.toTables := by
  have hnodup : ∀ tables : Database,
      (tables.purchases.map fun p => (p.orderId, p.payment)).Nodup := by
    intro tables
    refine List.Nodup.of_map Prod.fst ?_
    rw [List.map_map]
    exact tables.schema.orderIds_nodup
  refine ⟨fun x => ?_, ?_⟩
  · rw [mem_sightings h, mem_sightings h']
    exact exists_congr fun e => and_congr_left' (hsame e)
  · have hperm : (db.purchases.map fun p => (p.orderId, p.payment)).Perm
        (db'.purchases.map fun p => (p.orderId, p.payment)) := by
      refine (List.perm_ext_iff_of_nodup (hnodup db) (hnodup db')).mpr fun x => ?_
      rw [mem_payments h hagree hcollide,
        mem_payments h' (hagree.congr hsame) (hcollide.congr hsame)]
      exact exists_congr fun e => and_congr_left' (hsame e)
    have hpayments := hperm.map Prod.snd
    rwa [List.map_map, List.map_map] at hpayments

/-- **Metrics do not depend on how events arrived.** Two histories of batches that deliver the
same valid events, in whatever order, grouping and number, have the same five metrics for every
request: equal ids stand for equal events, purchases of an order agree, and so do purchases
that are stored as one order. -/
theorem arrival_order (L : Libraries) (pg : Postgres) (fl : ℚ → ℚ) (collation : Collation)
    (batches batches' : List Batch)
    (hsame : ∀ e, e ∈ delivered L pg batches ↔ e ∈ delivered L pg batches')
    (hagree : Agreeing (delivered L pg batches))
    (hcollide : CollisionsAgree (delivered L pg batches)) :
    SameMetrics fl collation (ingestAll L pg Database.empty batches).toTables
      (ingestAll L pg Database.empty batches').toTables :=
  sameMetrics_of_sameEvidence fl collation
    (sameEvidence_of_reflects (reflects_delivered hagree)
      (reflects_delivered (hagree.congr hsame)) hsame hagree hcollide)

/-! ### Two orders under one text -/

theorem deliveredFrom_nil {db : Database} : deliveredFrom L pg db [] = [] := rfl

theorem deliveredFrom_cons_of_ok {db : Database} {b : Batch} {batches : List Batch}
    (h : (serve L pg db b).answer.isOk = true) :
    deliveredFrom L pg db (b :: batches)
      = b.events.filterMap (acceptedEvent? L)
        ++ deliveredFrom L pg (serve L pg db b).after batches := by
  rw [deliveredFrom_cons, Exchange.delivered]
  cases hanswer : (serve L pg db b).answer with
  | ok response => rfl
  | unavailable => rw [hanswer] at h; cases h
  | failed => rw [hanswer] at h; cases h

def sampleBatch (events : List Json) : Batch := ⟨newYear, events, true⟩

/-- The collation `C`, on text without surrogates. -/
def codeUnits : Collation where
  le := fun s t => decide (s.map UInt16.toNat ≤ t.map UInt16.toNat)
  total := by
    intro s t
    simpa using le_total (s.map UInt16.toNat) (t.map UInt16.toNat)
  trans := by
    intro s t u hst htu
    simp only [decide_eq_true_eq] at hst htu ⊢
    exact le_trans hst htu
  antisymm := by
    intro s t hst hts
    simp only [decide_eq_true_eq] at hst hts
    exact List.map_injective_iff.mpr (fun _ _ => UInt16.toNat_inj.mp) (le_antisymm hst hts)

/-- A resend of the login, in another order and another batch, changes nothing. -/
theorem arrival_order_sample : SameMetrics id codeUnits
    (ingestAll sampleLibraries samplePostgres Database.empty
      [sampleBatch [samplePurchase 3, sampleLogin]]).toTables
    (ingestAll sampleLibraries samplePostgres Database.empty
      [sampleBatch [sampleLogin], sampleBatch [sampleLogin, samplePurchase 3]]).toTables := by
  obtain ⟨purchase, hpurchase, hid⟩ : ∃ e,
      validateEvent sampleLibraries (samplePurchase 3) = some (.accepted e) ∧
        e.eventId = js "22222222-2222-4222-8222-222222222222" :=
    exists_accepted (by decide +kernel)
  obtain ⟨login, hlogin, hid', hnone⟩ : ∃ e,
      validateEvent sampleLibraries sampleLogin = some (.accepted e) ∧
        e.eventId = js "33333333-3333-4333-8333-333333333333" ∧ e.purchase = none :=
    exists_accepted (by decide +kernel)
  have hone : delivered sampleLibraries samplePostgres
      [sampleBatch [samplePurchase 3, sampleLogin]] = [purchase, login] := by
    rw [delivered, deliveredFrom_cons_of_ok (by decide +kernel), deliveredFrom_nil]
    simp [sampleBatch, acceptedEvent?_eq_some.mpr hpurchase, acceptedEvent?_eq_some.mpr hlogin]
  have htwo : delivered sampleLibraries samplePostgres
      [sampleBatch [sampleLogin], sampleBatch [sampleLogin, samplePurchase 3]]
        = [login, login, purchase] := by
    rw [delivered, deliveredFrom_cons_of_ok (by decide +kernel),
      deliveredFrom_cons_of_ok (by decide +kernel), deliveredFrom_nil]
    simp [sampleBatch, acceptedEvent?_eq_some.mpr hpurchase, acceptedEvent?_eq_some.mpr hlogin]
  have hne : purchase.eventId ≠ login.eventId := by
    rw [hid, hid']
    decide +kernel
  refine arrival_order sampleLibraries samplePostgres id codeUnits _ _ (fun e => ?_)
    ⟨?_, ?_⟩ ?_
  · rw [hone, htwo]
    simp only [List.mem_cons, List.not_mem_nil, or_false]
    exact ⟨fun h => h.elim (fun h => .inr (.inr h)) .inl, fun h => h.elim .inr Or.symm⟩
  · rw [hone]
    simp [hne, hne.symm]
  · rw [hone]
    simp only [List.forall_mem_cons, hnone]
    simp [SamePayment]
    intro p hp p' hp' _
    obtain rfl := Option.some.inj (hp.symm.trans hp')
    exact ⟨rfl, rfl⟩
  · rw [hone]
    simp only [CollisionsAgree, List.forall_mem_cons, hnone]
    simp [SamePayment]
    intro p hp p' hp' hraw _
    obtain rfl := Option.some.inj (hp.symm.trans hp')
    exact absurd rfl hraw

/-- A purchase of the order `orderId`. -/
def sampleOrder (eventId orderId : JsString) (amountMinor : ℕ) : Json :=
  sampleEvent eventId .shopPurchase [
    (js "order_id", .str orderId),
    (js "product_id", .str (js "potion")),
    (js "product_name", .str (js "Potion")),
    (js "quantity", .nat 1),
    (js "amount_minor", .nat amountMinor),
    (js "currency", .str (js "KRW"))]

/-- 64 characters, the last a variation selector; a space more is no more for `Length`, and it
is cut when the order is stored. -/
def longOrderId : JsString := List.replicate 63 0x61 ++ [0xfe0f]

def firstOrder : Json := sampleOrder (js "22222222-2222-4222-8222-222222222222") longOrderId 100

def secondOrder : Json :=
  sampleOrder (js "33333333-3333-4333-8333-333333333333") (longOrderId ++ js " ") 200

def newYearsDay : MetricsQuery := ⟨js "2026-01-01", js "2026-01-01", none, none⟩

/-- The revenue that a request for the day reports. -/
def revenueOf (db : Tables) : Option JsString :=
  (getRevenue db (some (js "KRW")) newYearsDay).toOption.map fun response =>
    response.summary.revenueMinor

/-- The two orders are delivered in one batch, in either order; the revenue is that of the
first. -/
theorem orders_collide : ∃ batches batches' : List Batch,
    (∀ e, e ∈ delivered sampleLibraries samplePostgres batches ↔
      e ∈ delivered sampleLibraries samplePostgres batches') ∧
    Agreeing (delivered sampleLibraries samplePostgres batches) ∧
    ∀ (fl : ℚ → ℚ) (collation : Collation), ¬SameMetrics fl collation
      (ingestAll sampleLibraries samplePostgres Database.empty batches).toTables
      (ingestAll sampleLibraries samplePostgres Database.empty batches').toTables := by
  obtain ⟨first, hfirst, hid, horder⟩ : ∃ e,
      validateEvent sampleLibraries firstOrder = some (.accepted e) ∧
        e.eventId = js "22222222-2222-4222-8222-222222222222" ∧
        e.purchase.map Purchase.orderId = some longOrderId := exists_accepted (by decide +kernel)
  obtain ⟨second, hsecond, hid', horder'⟩ : ∃ e,
      validateEvent sampleLibraries secondOrder = some (.accepted e) ∧
        e.eventId = js "33333333-3333-4333-8333-333333333333" ∧
        e.purchase.map Purchase.orderId = some (longOrderId ++ js " ") :=
    exists_accepted (by decide +kernel)
  have hone : delivered sampleLibraries samplePostgres [sampleBatch [firstOrder, secondOrder]]
      = [first, second] := by
    rw [delivered, deliveredFrom_cons_of_ok (by decide +kernel), deliveredFrom_nil]
    simp [sampleBatch, acceptedEvent?_eq_some.mpr hfirst, acceptedEvent?_eq_some.mpr hsecond]
  have htwo : delivered sampleLibraries samplePostgres [sampleBatch [secondOrder, firstOrder]]
      = [second, first] := by
    rw [delivered, deliveredFrom_cons_of_ok (by decide +kernel), deliveredFrom_nil]
    simp [sampleBatch, acceptedEvent?_eq_some.mpr hfirst, acceptedEvent?_eq_some.mpr hsecond]
  refine ⟨[sampleBatch [firstOrder, secondOrder]], [sampleBatch [secondOrder, firstOrder]],
    fun e => ?_, ⟨?_, ?_⟩, fun fl collation hsame => ?_⟩
  · rw [hone, htwo]
    simp only [List.mem_cons, List.not_mem_nil, or_false]
    exact or_comm
  · -- they are distinct events, so agreement asks nothing of their content
    have hne : first.eventId ≠ second.eventId := by
      rw [hid, hid']
      decide +kernel
    rw [hone]
    simp [hne, hne.symm]
  · obtain ⟨p, hp, hraw⟩ := Option.map_eq_some_iff.mp horder
    obtain ⟨p', hp', hraw'⟩ := Option.map_eq_some_iff.mp horder'
    have hne : p.orderId ≠ p'.orderId := by
      rw [hraw, hraw']
      decide +kernel
    rw [hone]
    simp [hp, hp', hne, hne.symm, SamePayment]
  · -- `varchar` cuts both orders to one, and the first to arrive keeps the row
    have hrevenue : revenueOf (ingestAll sampleLibraries samplePostgres Database.empty
        [sampleBatch [firstOrder, secondOrder]]).toTables = some (js "100") := by
      decide +kernel
    have hrevenue' : revenueOf (ingestAll sampleLibraries samplePostgres Database.empty
        [sampleBatch [secondOrder, firstOrder]]).toTables = some (js "200") := by
      decide +kernel
    rw [revenueOf, hsame.revenue, ← revenueOf, hrevenue'] at hrevenue
    exact absurd hrevenue (by decide +kernel)

end Metrics
