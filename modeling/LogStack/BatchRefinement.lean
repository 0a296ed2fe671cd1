/-
Batch ingestion refines event-at-a-time ingestion.

* `step` — the reference: what one raw event does to the tables;
* `foldl_step` — a stored batch has done what its events do one after another;
* `Counts` — what the counts of a response say about the tables before and after it;
* `batch_refinement` — any sequence of batches, answered or not, comes to the events of the
  answered ones taken one by one, and every response counts.
-/
import LogStack.Ingestion

open KeyedInsert

namespace Ingestion

variable (L : Libraries) (pg : Postgres)

/-! ### The reference -/

/-- One accepted event: stored unless its id is there already, and with its purchase unless
the order is. -/
def storeEvent (db : Tables) (e : NormalizedEvent) : Tables :=
  if e.eventId ∈ db.eventIds then db
  else match gameEventRow pg e with
    | none => db
    | some row => {
        gameEvents := db.gameEvents ++ [row]
        purchases := match boundPurchase pg e with
          | none => db.purchases
          | some purchase => insertNew PurchaseRow.orderId db.purchases purchase }

/-- One raw event: a rejected one changes nothing. -/
def step (db : Tables) (raw : Json) : Tables :=
  match acceptedEvent? L raw with
  | none => db
  | some e => storeEvent pg db e

variable {L pg} {db : Tables} {e : NormalizedEvent} {es xs ys : List NormalizedEvent}

theorem foldl_step_eq (raws : List Json) :
    raws.foldl (step L pg) db = (raws.filterMap (acceptedEvent? L)).foldl (storeEvent pg) db := by
  induction raws generalizing db with
  | nil => rfl
  | cons raw raws ih =>
    rw [List.foldl_cons, ih, step]
    cases h : acceptedEvent? L raw with
    | none => rw [List.filterMap_cons_none h]
    | some e => rw [List.filterMap_cons_some h, List.foldl_cons]

theorem orderIds_store : (db.store pg xs).orderIds
    = db.orderIds ++ (newPurchases pg db xs).map PurchaseRow.orderId := by
  rw [Tables.orderIds, Tables.store, List.map_append, Tables.orderIds]

theorem newPurchases_append : newPurchases pg db (xs ++ ys)
    = newPurchases pg db xs ++ newPurchases pg (db.store pg xs) ys := by
  rw [newPurchases, List.filterMap_append, firstNew_append]
  refine congrArg (newPurchases pg db xs ++ ·) (firstNew_congr fun k => ?_)
  rw [orderIds_store, List.mem_append, List.mem_append]
  exact or_comm

theorem store_append : db.store pg (xs ++ ys) = (db.store pg xs).store pg ys := by
  simp only [Tables.store, List.filterMap_append, List.append_assoc, newPurchases_append]

theorem storeEvent_of_mem (h : e.eventId ∈ db.eventIds) : storeEvent pg db e = db := if_pos h

theorem storeEvent_of_notMem (h : e.eventId ∉ db.eventIds)
    (hrow : (gameEventRow pg e).isSome = true) : storeEvent pg db e = db.store pg [e] := by
  obtain ⟨row, hrow⟩ := Option.isSome_iff_exists.mp hrow
  rw [storeEvent, if_neg h, hrow, Tables.store, newPurchases, List.filterMap_cons_some hrow]
  cases hbound : boundPurchase pg e with
  | none => simp [hbound]
  | some p =>
    rw [List.filterMap_cons_some hbound]
    have hinsert : insertNew PurchaseRow.orderId db.purchases p
        = db.purchases ++ firstNew PurchaseRow.orderId db.orderIds [p] :=
      (foldl_insertNew : [p].foldl _ db.purchases = _)
    exact congrArg _ hinsert

/-- One after another, events are stored as a batch stores them. -/
theorem foldl_storeEvent (hcanon : ∀ e ∈ es, e.eventId.toLowerCase = e.eventId)
    (hrows : ∀ e ∈ newEvents db es, (gameEventRow pg e).isSome = true) :
    es.foldl (storeEvent pg) db = db.store pg (newEvents db es) := by
  induction es generalizing db with
  | nil => exact (store_nil db).symm
  | cons e es ih =>
    have hcanon' : ∀ e' ∈ es, e'.eventId.toLowerCase = e'.eventId := fun e' he' =>
      hcanon e' (List.mem_cons_of_mem _ he')
    rw [List.foldl_cons]
    by_cases hmem : e.eventId ∈ db.eventIds
    · have hnew : newEvents db (e :: es) = newEvents db es := firstNew_cons_of_mem hmem
      rw [hnew] at hrows ⊢
      rw [storeEvent_of_mem hmem, ih hcanon' hrows]
    · have hnew : newEvents db (e :: es)
          = e :: firstNew NormalizedEvent.eventId (e.eventId :: db.eventIds) es :=
        firstNew_cons_of_notMem hmem
      have hrow := hrows e (hnew ▸ List.mem_cons_self)
      have hids : (db.store pg [e]).eventIds = db.eventIds ++ [e.eventId] := by
        obtain ⟨row, hrow⟩ := Option.isSome_iff_exists.mp hrow
        rw [Tables.eventIds, Tables.store, List.filterMap_cons_some hrow, List.map_append]
        exact congrArg (fun id => db.eventIds ++ [id])
          ((eventId_of_gameEventRow hrow).trans (hcanon e List.mem_cons_self))
      have hrest : newEvents (db.store pg [e]) es
          = firstNew NormalizedEvent.eventId (e.eventId :: db.eventIds) es := by
        refine firstNew_congr fun k => ?_
        rw [hids, List.mem_append, List.mem_singleton, List.mem_cons, or_comm]
      rw [storeEvent_of_notMem hmem hrow, hnew, ih hcanon', hrest]
      · exact store_append.symm
      · intro e' he'
        rw [hrest] at he'
        exact hrows e' (hnew ▸ List.mem_cons_of_mem _ he')

/-! ### Runs of batches -/

/-- A request, and whether the database can be reached while it is served. -/
structure Batch where
  batchId : JsString
  events : List Json
  reachable : Bool

/-- A request that has been served. -/
structure Exchange where
  batch : Batch
  before : Database
  answer : Answer
  after : Database

variable (L pg) in
def serve (db : Database) (b : Batch) : Exchange where
  batch := b
  before := db
  answer := (ingest L pg b.reachable b.batchId b.events db.toTables).1
  after := ⟨_, schema_ingest L pg db b.reachable b.batchId b.events⟩

variable (L pg) in
/-- Serving requests one after another. -/
def exchanges : Database → List Batch → List Exchange
  | _, [] => []
  | db, b :: rest => serve L pg db b :: exchanges (serve L pg db b).after rest

variable (L pg) in
/-- The tables in the end. -/
def ingestAll (db : Database) (batches : List Batch) : Database :=
  batches.foldl (fun db b => (serve L pg db b).after) db

/-- The events of a request that has been answered 200; a failed one counts for nothing. -/
def Exchange.delivered (x : Exchange) : List Json :=
  match x.answer with
  | .ok _ => x.batch.events
  | .unavailable => []
  | .failed => []

/-- The rows that a request has added to `game_events`. -/
def Exchange.newRows (x : Exchange) : List GameEventRow :=
  x.after.gameEvents.drop x.before.gameEvents.length

/-- What the counts of a response say about the tables. -/
structure Counts (x : Exchange) (response : EventBatchResponse) : Prop where
  received : response.receivedCount = x.batch.events.length
  received_split : response.receivedCount = response.acceptedCount + response.rejectedCount
  rejected : response.rejectedCount = response.rejected.length
  accepted_split : (response.acceptedCount : ℤ) = response.storedCount + response.duplicateCount
  duplicate_nonneg : 0 ≤ response.duplicateCount
  stored : x.after.gameEvents.length = x.before.gameEvents.length + response.storedCount
  orderDuplicate : response.orderDuplicateCount
    = (x.newRows.filter fun row => row.eventType = EventType.shopPurchase.name).length
      - (x.after.purchases.length - x.before.purchases.length : ℤ)
  orderDuplicate_nonneg : 0 ≤ response.orderDuplicateCount
  orderDuplicate_le : response.orderDuplicateCount ≤ response.storedCount

theorem eventType_of_gameEventRow {row : GameEventRow} (h : gameEventRow pg e = some row) :
    row.eventType = e.eventType.name := by
  simp only [gameEventRow, Option.bind_eq_bind, Option.bind_eq_some_iff, Option.pure_def,
    Option.some.injEq, varchar?_name] at h
  obtain ⟨_, -, _, -, _, rfl, _, -, _, -, _, -, _, -, _, -, _, -, rfl⟩ := h
  rfl

theorem length_newPurchases_le (db : Tables) (new : List NormalizedEvent) :
    (newPurchases pg db new).length ≤ (new.filter fun e => e.purchase.isSome).length := by
  refine firstNew_sublist.length_le.trans ?_
  induction new with
  | nil => exact le_rfl
  | cons e new ih =>
    cases hbound : boundPurchase pg e with
    | none =>
      rw [List.filterMap_cons_none hbound]
      exact ih.trans ((List.sublist_cons_self e new).filter _).length_le
    | some p =>
      obtain ⟨q, hq, -⟩ := Option.bind_eq_some_iff.mp hbound
      rw [List.filterMap_cons_some hbound, List.filter_cons_of_pos (by rw [hq, Option.isSome_some])]
      exact Nat.succ_le_succ ih

section Serve

variable {db : Database} {b : Batch} {response : EventBatchResponse}

variable (L pg) in
/-- A batch that is answered 200 has committed; any other has changed nothing. -/
theorem serve_cases (db : Database) (b : Batch) :
    (∃ accepted rejected, validateEvents L 0 b.events = some (accepted, rejected) ∧
      Commits pg b.reachable db.toTables accepted ∧
      (serve L pg db b).answer
        = .ok (responseOf pg b.batchId b.events db.toTables accepted rejected) ∧
      (serve L pg db b).after.toTables
        = db.toTables.store pg (newEvents db.toTables accepted)) ∨
    (∀ response, (serve L pg db b).answer ≠ .ok response) ∧ (serve L pg db b).after = db := by
  have hafter : (serve L pg db b).after.toTables
      = (ingest L pg b.reachable b.batchId b.events db.toTables).2 := rfl
  have hanswer : (serve L pg db b).answer
      = (ingest L pg b.reachable b.batchId b.events db.toTables).1 := rfl
  cases h : validateEvents L 0 b.events with
  | none =>
    rw [ingest, h] at hafter hanswer
    exact .inr ⟨by simp [hanswer], Database.eq_of_toTables hafter⟩
  | some result =>
    obtain ⟨accepted, rejected⟩ := result
    by_cases hcommits : Commits pg b.reachable db.toTables accepted
    · rw [ingest_of_commits h hcommits] at hafter hanswer
      exact .inl ⟨accepted, rejected, rfl, hcommits, hanswer, hafter⟩
    · rw [ingest_of_not_commits h hcommits] at hafter hanswer
      exact .inr ⟨by simp [hanswer], Database.eq_of_toTables hafter⟩

theorem canonical_of_validateEvents {raws : List Json} {accepted : List NormalizedEvent}
    {rejected : List RejectedEvent} (h : validateEvents L 0 raws = some (accepted, rejected)) :
    ∀ e ∈ accepted, e.eventId.toLowerCase = e.eventId := by
  intro e he
  rw [accepted_eq h] at he
  obtain ⟨raw, -, hraw⟩ := List.mem_filterMap.mp he
  exact canonical_of_acceptedEvent? hraw

theorem purchase_isSome_iff {raws : List Json} {accepted : List NormalizedEvent}
    {rejected : List RejectedEvent} (h : validateEvents L 0 raws = some (accepted, rejected))
    {e : NormalizedEvent} (he : e ∈ accepted) :
    e.purchase.isSome = true ↔ e.eventType = .shopPurchase := by
  rw [accepted_eq h] at he
  obtain ⟨raw, -, hraw⟩ := List.mem_filterMap.mp he
  exact (checked_of_accepted (acceptedEvent?_eq_some.mp hraw)).1.purchase

/-- The purchases among stored events can be counted by the type of the rows. -/
theorem length_filter_shopPurchase {new : List NormalizedEvent}
    (hrows : ∀ e ∈ new, (gameEventRow pg e).isSome = true)
    (hshop : ∀ e ∈ new, (e.purchase.isSome = true ↔ e.eventType = .shopPurchase)) :
    ((new.filterMap (gameEventRow pg)).filter fun row =>
        row.eventType = EventType.shopPurchase.name).length
      = (new.filter fun e => e.purchase.isSome).length := by
  obtain ⟨rows, hmap⟩ := exists_rows hrows
  rw [filterMap_rows hmap, filter_rows (p := fun e => e.purchase.isSome) hmap]
  · exact length_filterMap_rows fun e he => hrows e (List.mem_filter.mp he).1
  · intro e he row hrow
    rw [eventType_of_gameEventRow hrow, Bool.eq_iff_iff, decide_eq_true_iff, hshop e he]
    exact EventType.name_injective.eq_iff

/-- The events that a committed batch stores have rows. -/
theorem isSome_gameEventRow_of_commits {reachable : Bool} {accepted : List NormalizedEvent}
    (h : Commits pg reachable db.toTables accepted) :
    ∀ e ∈ newEvents db.toTables accepted, (gameEventRow pg e).isSome = true := by
  intro e he
  rcases h with rfl | ⟨-, hstorable⟩
  · exact absurd he List.not_mem_nil
  · rw [← newEvents_unique] at he
    exact hstorable.gameEvents e (firstNew_sublist.mem he)

/-- A batch does to the tables what its events do one by one. -/
theorem foldl_step (db : Database) (b : Batch) :
    (serve L pg db b).delivered.foldl (step L pg) db.toTables
      = (serve L pg db b).after.toTables := by
  rcases serve_cases L pg db b with
    ⟨accepted, rejected, hvalid, hcommits, hanswer, hafter⟩ | ⟨hanswer, hafter⟩
  · rw [hafter, Exchange.delivered, hanswer]
    show b.events.foldl _ _ = _
    rw [foldl_step_eq, ← accepted_eq hvalid]
    exact foldl_storeEvent (canonical_of_validateEvents hvalid)
      (isSome_gameEventRow_of_commits hcommits)
  · rw [hafter]
    cases h : (serve L pg db b).answer with
    | ok response => exact absurd h (hanswer response)
    | unavailable => rw [Exchange.delivered, h, List.foldl_nil]
    | failed => rw [Exchange.delivered, h, List.foldl_nil]

theorem counts (h : (serve L pg db b).answer = .ok response) :
    Counts (serve L pg db b) response := by
  obtain ⟨accepted, rejected, hvalid, hcommits, hanswer, hafter⟩ | ⟨hanswer, -⟩ :=
    serve_cases L pg db b
  · rw [hanswer, Answer.ok.injEq] at h
    subst h
    have hrows := isSome_gameEventRow_of_commits hcommits
    have hlength := length_accepted_add_rejected hvalid
    have hnew : (newEvents db.toTables accepted).length ≤ accepted.length :=
      firstNew_sublist.length_le
    have hpurchases : (newPurchases pg db.toTables (newEvents db.toTables accepted)).length
        ≤ ((newEvents db.toTables accepted).filter fun e => e.purchase.isSome).length :=
      length_newPurchases_le _ _
    have hfilter : ((newEvents db.toTables accepted).filter fun e => e.purchase.isSome).length
        ≤ (newEvents db.toTables accepted).length := List.filter_sublist.length_le
    have hgameEvents : (serve L pg db b).after.gameEvents = db.gameEvents
        ++ (newEvents db.toTables accepted).filterMap (gameEventRow pg) := by
      rw [hafter, Tables.store]
    have hafterPurchases : (serve L pg db b).after.purchases = db.purchases
        ++ newPurchases pg db.toTables (newEvents db.toTables accepted) := by
      rw [hafter, Tables.store]
    have hnewRows : (serve L pg db b).newRows
        = (newEvents db.toTables accepted).filterMap (gameEventRow pg) := by
      rw [Exchange.newRows, hgameEvents]
      exact List.drop_left
    -- the rows of the type `shop_purchase` are those of the purchase candidates
    have hshop : ((serve L pg db b).newRows.filter fun row =>
        row.eventType = EventType.shopPurchase.name).length
          = ((newEvents db.toTables accepted).filter fun e => e.purchase.isSome).length := by
      rw [hnewRows]
      refine length_filter_shopPurchase hrows fun e he => ?_
      exact purchase_isSome_iff hvalid (firstNew_sublist.mem he)
    refine ⟨rfl, hlength.symm, rfl, ?_, ?_, ?_, ?_, ?_, ?_⟩
    · simp only [responseOf]
      omega
    · simp only [responseOf]
      omega
    · rw [hgameEvents, List.length_append, length_filterMap_rows hrows]
      rfl
    · rw [hshop, hafterPurchases, List.length_append]
      simp only [responseOf, serve]
      omega
    · simp only [responseOf]
      omega
    · simp only [responseOf]
      omega
  · exact absurd h (hanswer response)

end Serve

/-- By induction on the batches. -/
theorem toTables_ingestAll (db : Database) (batches : List Batch) :
    (ingestAll L pg db batches).toTables
      = ((exchanges L pg db batches).flatMap Exchange.delivered).foldl (step L pg)
          db.toTables := by
  induction batches generalizing db with
  | nil => rfl
  | cons b batches ih =>
    rw [exchanges, List.flatMap_cons, List.foldl_append, foldl_step]
    exact ih _

theorem eq_serve_of_mem_exchanges {db : Database} {batches : List Batch} {x : Exchange}
    (h : x ∈ exchanges L pg db batches) : ∃ db', x = serve L pg db' x.batch := by
  induction batches generalizing db with
  | nil => exact absurd h List.not_mem_nil
  | cons b batches ih =>
    rcases List.mem_cons.mp h with rfl | h
    · exact ⟨db, rfl⟩
    · exact ih h

/-- **Batch ingestion refines event-at-a-time ingestion.** The tables are those of the
delivered events taken one by one, so any regrouping of these gives the same tables; and every
response counts what its batch has done. -/
theorem batch_refinement (L : Libraries) (pg : Postgres) (db : Database) (batches : List Batch) :
    (ingestAll L pg db batches).toTables
        = ((exchanges L pg db batches).flatMap Exchange.delivered).foldl (step L pg) db.toTables ∧
      (∀ x ∈ exchanges L pg db batches, ∀ response, x.answer = .ok response →
        Counts x response) ∧
      (∀ x ∈ exchanges L pg db batches, (∀ response, x.answer ≠ .ok response) →
        x.after = x.before) ∧
      ∀ batches', (exchanges L pg db batches').flatMap Exchange.delivered
          = (exchanges L pg db batches).flatMap Exchange.delivered →
        ingestAll L pg db batches' = ingestAll L pg db batches := by
  refine ⟨toTables_ingestAll db batches, fun x hx response h => ?_, fun x hx h => ?_,
    fun batches' h => Database.eq_of_toTables ?_⟩
  · obtain ⟨db', hx⟩ := eq_serve_of_mem_exchanges hx
    rw [hx] at h ⊢
    exact counts h
  · obtain ⟨db', hx⟩ := eq_serve_of_mem_exchanges hx
    rw [hx] at h ⊢
    rcases serve_cases L pg db' x.batch with
      ⟨_, _, -, -, hanswer, -⟩ | ⟨-, hafter⟩
    · exact absurd hanswer (h _)
    · exact hafter
  · rw [toTables_ingestAll, toTables_ingestAll, h]

end Ingestion
