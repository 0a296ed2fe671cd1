/-
What the metrics of the pipeline are.

Crashes, resends, splits and lost answers decide when an event comes to the tables, in which
batch and how often.  The metrics do not show it: they are those of a service that is handed
each event once.

* `handOver` — such a service;
* `Gathered` — the tables reflect recorded events; every batch that commits keeps this;
* `OrdersAgree` — purchases that are stored as one order are one payment;
* `exactly_once` — after every run.
-/
import LogStack.ArrivalOrder
import LogStack.Recovery

open FileProgram KeyedInsert Outbox Ingestion Sender

namespace Pipeline

variable {J : JsonText} {L : Libraries} {pg : Postgres} {offered events : List Event}

/-! ### Handing events over -/

section HandOver

variable (L) in
/-- A request with one event. -/
def single (e : Event) : Batch := ⟨e.id, [L.copyOf e.value], true⟩

variable (L pg) in
/-- Each event by itself, one after another, and nothing fails. -/
def handOver (events : List Event) : Database :=
  ingestAll L pg Database.empty (events.map (single L))

/-- An event that is accepted and fits its columns is answered 200. -/
theorem delivered_single {e : Event} {n : NormalizedEvent} (hn : normalized? L e = some n)
    (hdomain : InDomain pg n) (db : Database) :
    (serve L pg db (single L e)).delivered.filterMap (acceptedEvent? L) = [n] := by
  have hvalid : validateEvents L 0 [L.copyOf e.value] = some ([n], []) :=
    validateEvents_cons.mpr ⟨.accepted n, [], [], acceptedEvent?_eq_some.mp hn, rfl, rfl, rfl⟩
  have hcommits : Commits pg true db.toTables [n] := by
    refine .inr ⟨rfl, fun m hm => ?_, fun m hm => ?_⟩
    · obtain rfl := List.mem_singleton.mp (firstNew_sublist.mem hm)
      exact hdomain.1
    · obtain rfl := List.mem_singleton.mp (firstNew_sublist.mem (firstNew_sublist.mem hm))
      exact hdomain.2
  have hingest : ingest L pg true e.id [L.copyOf e.value] db.toTables = _ :=
    ingest_of_commits hvalid hcommits
  have hanswer : (serve L pg db (single L e)).answer = .ok _ := congrArg Prod.fst hingest
  have hdelivered : (serve L pg db (single L e)).delivered = [L.copyOf e.value] := by
    rw [Exchange.delivered, hanswer]
    rfl
  rw [hdelivered]
  exact List.filterMap_cons_some hn

/-- By induction on the events. -/
theorem deliveredFrom_single (db : Database)
    (h : ∀ e ∈ events, ∃ n, normalized? L e = some n ∧ InDomain pg n) :
    Metrics.deliveredFrom L pg db (events.map (single L)) = events.filterMap (normalized? L) := by
  induction events generalizing db with
  | nil => rfl
  | cons e events ih =>
    obtain ⟨⟨n, hn, hdomain⟩, hrest⟩ := List.forall_mem_cons.mp h
    rw [List.map_cons, Metrics.deliveredFrom_cons, delivered_single hn hdomain, ih _ hrest,
      List.filterMap_cons_some hn]
    rfl

end HandOver

/-! ### What the tables reflect -/

section Gathered

variable (L pg) in
/-- The tables reflect some of the events. -/
def Gathered (offered : List Event) (db : Tables) : Prop :=
  ∃ normal : List NormalizedEvent, Metrics.Reflects pg normal db ∧
    ∀ n ∈ normal, ∃ e ∈ offered, normalized? L e = some n

theorem gathered_start : Gathered L pg offered (System.start J).database.toTables :=
  ⟨[], Metrics.reflects_empty, fun _ hn => absurd hn List.not_mem_nil⟩

/-- No two of the events become different events with one id. -/
theorem DistinctIds.normalized_eq (h : DistinctIds offered) {n n' : NormalizedEvent}
    (hn : n ∈ offered.filterMap (normalized? L)) (hn' : n' ∈ offered.filterMap (normalized? L))
    (hid : n.eventId = n'.eventId) : n = n' := by
  obtain ⟨e, he, hnormal⟩ := List.mem_filterMap.mp hn
  obtain ⟨e', he', hnormal'⟩ := List.mem_filterMap.mp hn'
  rw [eventId_of_normalized hnormal, eventId_of_normalized hnormal'] at hid
  obtain rfl := h.eq he he' hid
  exact Option.some.inj (hnormal.symm.trans hnormal')

theorem Committed.gathered {es : List Event} {db : Database} {r : HttpResponse} {db' : Tables}
    (h : Committed J L pg es db r db') (hdistinct : DistinctIds offered) (hes : es ⊆ offered)
    (hgathered : Gathered L pg offered db.toTables) : Gathered L pg offered db' := by
  obtain ⟨normal, hreflects, hnormal⟩ := hgathered
  obtain ⟨accepted, response, reachable, hvalid, hcommits, -, rfl⟩ := h.served
  have haccepted : ∀ n ∈ accepted, ∃ e ∈ offered, normalized? L e = some n := by
    intro n hn
    rw [accepted_eq hvalid] at hn
    obtain ⟨raw, hraw, hevent⟩ := List.mem_filterMap.mp hn
    obtain ⟨value, hvalue, rfl⟩ := List.mem_map.mp hraw
    obtain ⟨e, he, rfl⟩ := List.mem_map.mp hvalue
    exact ⟨e, hes he, hevent⟩
  have hall : ∀ n ∈ normal ++ accepted, ∃ e ∈ offered, normalized? L e = some n := fun n hn =>
    (List.mem_append.mp hn).elim (hnormal n) (haccepted n)
  refine ⟨normal ++ accepted, ?_, hall⟩
  refine hreflects.store (fun n hn => List.mem_filterMap.mpr (hall n hn))
    (fun n hn n' hn' => hdistinct.normalized_eq hn hn') (fun n hn => ?_)
    (isSome_gameEventRow_of_commits hcommits) (Metrics.isSome_boundPurchase_of_commits hcommits)
  obtain ⟨e, -, hevent⟩ := List.mem_filterMap.mp hn
  exact canonical_of_acceptedEvent? hevent

end Gathered

/-! ### The metrics -/

section Metrics

variable (L) in
/-- Purchases that are stored as one order are one payment. -/
def OrdersAgree (offered : List Event) : Prop :=
  ∀ n ∈ offered.filterMap (normalized? L), ∀ n' ∈ offered.filterMap (normalized? L),
    ∀ p ∈ n.purchase, ∀ p' ∈ n'.purchase,
      varchar? 64 p.orderId = varchar? 64 p'.orderId → Metrics.SamePayment n n' p p'

/-- The queue is determined. -/
theorem Process.Shows.eq {process : Process J} {queue queue' : List Event}
    (h : process.Shows queue) (h' : process.Shows queue') : queue = queue' := by
  obtain ⟨ob, w, hopen, hqueue⟩ := h.kept 0 [] uninterrupted_nil
  obtain ⟨ob', w', hopen', hqueue'⟩ := h'.kept 0 [] uninterrupted_nil
  rw [hopen] at hopen'
  obtain ⟨-, hup⟩ := Prod.mk.inj hopen'
  obtain ⟨rfl, rfl⟩ := Status.up.inj hup
  exact Event.value_injective.list_map (hqueue.symm.trans hqueue')

variable (L pg) in
/-- The events that have a row, and what the metrics make of them. -/
structure HandedOver (fl : ℚ → ℚ) (collation : Metrics.Collation) (offered : List Event)
    (s : System J) (events : List Event) : Prop where
  /-- In the order of their recording, each of them once. -/
  sublist : events.Sublist offered
  stored : ∀ e ∈ offered, e ∈ events ↔ s.HasRow L pg e
  metrics : Metrics.SameMetrics fl collation s.database.toTables
    (handOver L pg events).toTables
  /-- Once nothing waits, these are the events that the receiver accepts. -/
  complete : s.process.Shows [] → ∀ e ∈ s.returned, e ∈ events ↔ ¬Doomed J L e

variable {s : System J} {a : Ledger J}

theorem Inv.handedOver (h : Inv L pg offered s a) (hdistinct : DistinctIds offered)
    (hagree : OrdersAgree L offered) (hgathered : Gathered L pg offered s.database.toTables)
    (fl : ℚ → ℚ) (collation : Metrics.Collation) :
    ∃ events, HandedOver L pg fl collation offered s events := by
  classical
  obtain ⟨normal, hreflects, hnormal⟩ := hgathered
  set events := offered.filter fun e => s.HasRow L pg e with hevents
  have hmem : ∀ e ∈ offered, e ∈ events ↔ s.HasRow L pg e := fun e he => by
    rw [hevents, List.mem_filter, decide_eq_true_iff, and_iff_right he]
  -- an event has a row exactly if the tables reflect it
  have hsame : ∀ n, n ∈ normal ↔ n ∈ events.filterMap (normalized? L) := by
    intro n
    rw [List.mem_filterMap]
    constructor
    · intro hn
      obtain ⟨e, he, hevent⟩ := hnormal n hn
      obtain ⟨row, hrow, hbound⟩ := hreflects.stored n hn
      exact ⟨e, (hmem e he).mpr ⟨row, hrow, n, hevent, hbound⟩, hevent⟩
    · rintro ⟨e, he, hevent⟩
      have hoffered : e ∈ offered := List.mem_of_mem_filter he
      obtain ⟨row, hrow, hof⟩ := (hmem e hoffered).mp he
      obtain ⟨n', hn', hbound⟩ := hreflects.event row hrow
      obtain ⟨e', he', hevent'⟩ := hnormal n' hn'
      have hid : rowId e = rowId e' := by
        rw [← hof.eventId, RowOf.eventId ⟨n', hevent', hbound⟩]
      obtain rfl := hdistinct.eq hoffered he' hid
      exact Option.some.inj (hevent'.symm.trans hevent) ▸ hn'
  have hdelivered : Metrics.delivered L pg (events.map (single L))
      = events.filterMap (normalized? L) := by
    refine deliveredFrom_single _ fun e he => ?_
    obtain ⟨row, hrow, n, hevent, hbound⟩ :=
      (hmem e (List.mem_of_mem_filter he)).mp he
    have hn := (hsame n).mpr (List.mem_filterMap.mpr ⟨e, he, hevent⟩)
    refine ⟨n, hevent, by rw [hbound]; rfl, fun hpurchase => ?_⟩
    obtain ⟨q, hq, -⟩ := hreflects.paid n hn hpurchase
    rw [hq]
    rfl
  have hsub : ∀ n ∈ normal, n ∈ offered.filterMap (normalized? L) := fun n hn =>
    List.mem_filterMap.mpr (hnormal n hn)
  have hagreeing : Metrics.Agreeing normal := by
    refine ⟨fun n hn n' hn' => hdistinct.normalized_eq (hsub n hn) (hsub n' hn'), ?_⟩
    intro n hn n' hn' p hp p' hp' horder
    exact hagree n (hsub n hn) n' (hsub n' hn') p hp p' hp' (by rw [horder])
  have hcollide : Metrics.CollisionsAgree normal := fun n hn n' hn' p hp p' hp' _ =>
    hagree n (hsub n hn) n' (hsub n' hn') p hp p' hp'
  rw [← hdelivered] at hsame
  refine ⟨events, List.filter_sublist, hmem, ?_, fun hempty e he => ?_⟩
  · exact Metrics.sameMetrics_of_sameEvidence fl collation
      (Metrics.sameEvidence_of_reflects
        (show Metrics.Reflects pg normal s.database.toTables from hreflects)
        (Metrics.reflects_delivered (hagreeing.congr hsame)) hsame hagreeing hcollide)
  · have hnil : a.pending = [] := h.shows.eq hempty
    rw [hmem e (h.kept.recorded (h.returned he))]
    exact (h.cleared hnil).stored e he

/-- **Exactly once.** After every run of sender, network and receiver, the metrics are those of a
service that was handed the events that have a row, each of them once, by itself and in the order
in which they were recorded. Once nothing waits in the outbox, these are the events whose append
returned and that the receiver accepts. -/
theorem exactly_once (J : JsonText) (L : Libraries) (pg : Postgres) (fl : ℚ → ℚ)
    (collation : Metrics.Collation) (actions : List (Action J L))
    (hdistinct : DistinctIds (actions.flatMap Action.events))
    (hagree : OrdersAgree L (actions.flatMap Action.events)) :
    ∃ events, HandedOver L pg fl collation (actions.flatMap Action.events)
      ((System.start J).run pg actions) events := by
  have hstart : Inv L pg (actions.flatMap Action.events) (System.start J) Outbox.Ledger.empty :=
    inv_start
  obtain ⟨a, h, hgathered⟩ := hstart.run_tables
    (fun _ _ _ _ hes hcommitted => hcommitted.gathered hdistinct hes) actions gathered_start
    hdistinct (List.Subset.refl _)
  exact h.handedOver hdistinct hagree hgathered fl collation

/-! ### An order that is sent twice -/

theorem isEventRecord_smallOrder : isEventRecord (samplePurchase 3) = true := by decide +kernel

def smallOrder : Event := ⟨samplePurchase 3, plain_samplePurchase _, isEventRecord_smallOrder⟩

/-- The sender is killed before the answer arrives, and sends login and order again. -/
def resentOrder : List (Action compactJson sampleLibraries) := [
  .open 8 .quiet,
  .append [loginEvent, smallOrder] .quiet,
  .send sampleLabel,
  .serve 0 true none,
  .kill,
  .open 8 .quiet,
  .send sampleLabel,
  .serve 1 true none]

theorem ordersAgree_resentOrder :
    OrdersAgree sampleLibraries (resentOrder.flatMap Action.events) := by
  simp only [OrdersAgree, Metrics.SamePayment]
  decide +kernel

/-- The order has been paid once. -/
theorem exactly_once_resentOrder :
    (∃ events, HandedOver sampleLibraries samplePostgres id Metrics.codeUnits
      (resentOrder.flatMap Action.events)
      ((System.start compactJson).run samplePostgres resentOrder) events) ∧
    Metrics.revenueOf ((System.start compactJson).run samplePostgres resentOrder).database.toTables
      = some (js "100") :=
  ⟨exactly_once compactJson sampleLibraries samplePostgres id Metrics.codeUnits resentOrder
    (show List.Nodup _ by decide +kernel) ordersAgree_resentOrder, by decide +kernel⟩

end Metrics

end Pipeline
