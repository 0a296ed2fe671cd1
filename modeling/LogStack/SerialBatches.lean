/-
Concurrent batches are served one after the other.

* `Interleaving` — transactions that take their steps in any order, with what is observed of
  them: the batches of the transactions that have committed, in the order of their commits, and
  the results that were returned;
* `Executed` — a transaction under way has inserted what its statements would have inserted into
  the committed tables alone;
* `serializable` — the committed tables are those of a service that has served the same batches
  one at a time in that order, and the results are those behind its answers;
* `interleaving_independent` — however transactions interleave, the same delivered events have
  the same metrics.
-/
import LogStack.ArrivalOrder
import LogStack.ConcurrentBatches

open KeyedInsert

namespace Ingestion

/-- Transactions under way, and what is observed of them. -/
structure Interleaving where
  server : Server
  /-- the batch that a transaction stores -/
  batches : ℕ → Option (List Json)
  /-- the batches of the committed transactions -/
  served : List Batch
  results : List StoreBatchResult

namespace Interleaving

def start (db : Database) : Interleaving :=
  ⟨⟨⟨db.gameEvents, []⟩, ⟨db.purchases, []⟩, fun _ => none⟩, fun _ => none, [], []⟩

variable (L : Libraries) (pg : Postgres) (batchId : JsString)

/-- One step of one transaction; one that waits stays where it is. -/
def step (r : Interleaving) (move : ℕ × Action) : Interleaving :=
  match step? L pg r.server move.1 move.2 with
  | none => r
  | some (o, s) => {
      server := s
      batches := match move.2 with
        | .start batch => Function.update r.batches move.1 (some batch)
        | _ => r.batches
      served := r.served ++ (o.bind fun _ => r.batches move.1).toList.map (⟨batchId, ·, true⟩)
      results := r.results ++ o.toList }

def run (r : Interleaving) (moves : List (ℕ × Action)) : Interleaving :=
  moves.foldl (step L pg batchId) r

end Interleaving

variable {L : Libraries} {pg : Postgres}

/-! ### A transaction under way -/

/-- What the statements of a transaction have inserted so far, among the others. -/
inductive Executed (pg : Postgres) (s : Server) (i : ℕ) (events : List NormalizedEvent) :
    Statement → Prop
  | insertEvents {done todo : List NormalizedEvent} (split : events = done ++ todo)
      (bound : ∀ e ∈ done, (gameEventRow pg e).isSome = true)
      (inserted : s.gameEvents.Inserted i GameEventRow.eventId
        (done.filterMap (gameEventRow pg)))
      (purchases : s.purchases.Inserted i PurchaseRow.orderId []) :
      Executed pg s i events (.insertEvents todo)
  | insertPurchases {candidates done todo : List NormalizedEvent}
      (bound : ∀ e ∈ events, (gameEventRow pg e).isSome = true)
      (inserted : s.gameEvents.Inserted i GameEventRow.eventId
        (events.filterMap (gameEventRow pg)))
      (stored : candidates = events.filter fun e => e.purchase.isSome &&
        e.eventId ∈ ((s.gameEvents.own i).map GameEventRow.eventId).toFinset)
      (split : candidates = done ++ todo)
      (boundPurchases : ∀ e ∈ done, (boundPurchase pg e).isSome = true)
      (purchases : s.purchases.Inserted i PurchaseRow.orderId
        (done.filterMap (boundPurchase pg))) :
      Executed pg s i events (.insertPurchases candidates todo)

/-- The transaction stores the new events of its batch. -/
structure Executing (L : Libraries) (pg : Postgres) (s : Server) (i : ℕ)
    (batch : Option (List Json)) (tx : Transaction) : Prop where
  batch : ∃ raws accepted rejected, batch = some raws ∧
    validateEvents L 0 raws = some (accepted, rejected) ∧
      tx.events = firstNew NormalizedEvent.eventId [] accepted ∧ tx.events ≠ []
  executed : Executed pg s i tx.events tx.statement

/-- What holds of a number, whether or not a transaction has it. -/
def Underway (L : Libraries) (pg : Postgres) (s : Server) (i : ℕ) (batch : Option (List Json)) :
    Option Transaction → Prop
  | none => s.gameEvents.own i = [] ∧ s.purchases.own i = []
  | some tx => Executing L pg s i batch tx

/-- What a step of transaction `i` leaves to transaction `j`. -/
structure Leaves (s s' : Server) (j : ℕ) : Prop where
  gameEvents : s'.gameEvents.own j = s.gameEvents.own j
  purchases : s'.purchases.own j = s.purchases.own j
  inserted : ∀ done, s.gameEvents.Inserted j GameEventRow.eventId done →
    s'.gameEvents.Inserted j GameEventRow.eventId done
  insertedPurchases : ∀ done, s.purchases.Inserted j PurchaseRow.orderId done →
    s'.purchases.Inserted j PurchaseRow.orderId done

variable {s s' : Server} {i j : ℕ} {events : List NormalizedEvent} {batch : Option (List Json)}

theorem Leaves.refl : Leaves s s j := ⟨rfl, rfl, fun _ h => h, fun _ h => h⟩

theorem Executed.leaves {statement : Statement} (h : Executed pg s j events statement)
    (hleaves : Leaves s s' j) : Executed pg s' j events statement := by
  cases h with
  | insertEvents split bound inserted purchases =>
    exact .insertEvents split bound (hleaves.inserted _ inserted)
      (hleaves.insertedPurchases _ purchases)
  | insertPurchases bound inserted stored split boundPurchases purchases =>
    rw [← hleaves.gameEvents] at stored
    exact .insertPurchases bound (hleaves.inserted _ inserted) stored split boundPurchases
      (hleaves.insertedPurchases _ purchases)

theorem Underway.leaves {tx : Option Transaction} (h : Underway L pg s j batch tx)
    (hleaves : Leaves s s' j) : Underway L pg s' j batch tx := by
  cases tx with
  | none => exact ⟨hleaves.gameEvents.trans h.1, hleaves.purchases.trans h.2⟩
  | some tx => exact ⟨h.batch, h.executed.leaves hleaves⟩

/-- It matters which rows are there, not what the transactions do next. -/
theorem Underway.setTransaction {tx tx' : Option Transaction} (h : Underway L pg s j batch tx) :
    Underway L pg (s.setTransaction i tx') j batch tx :=
  h.leaves ⟨rfl, rfl, fun _ h => h, fun _ h => h⟩

section Statements

variable {e : NormalizedEvent} {todo candidates : List NormalizedEvent}

/-- One more event. -/
theorem Executed.insertEvent {row : GameEventRow} {gameEvents : SharedTable ℕ GameEventRow}
    (h : Executed pg s i events (.insertEvents (e :: todo)))
    (hrow : gameEventRow pg e = some row)
    (hinsert : s.gameEvents.insert? i GameEventRow.eventId row = some gameEvents) :
    Executed pg { s with gameEvents := gameEvents } i events (.insertEvents todo) := by
  obtain ⟨hsplit, hbound, hinserted, hpurchases⟩ | ⟨⟩ := h
  rename_i done
  have hsplit' : events = (done ++ [e]) ++ todo := by
    rw [hsplit, List.append_assoc]
    rfl
  refine .insertEvents hsplit' (fun e' he' => ?_) ?_ hpurchases
  · rcases List.mem_append.mp he' with he' | he'
    · exact hbound e' he'
    · rw [List.mem_singleton.mp he', hrow, Option.isSome_some]
  · rw [List.filterMap_append, List.filterMap_cons_some hrow]
    exact hinserted.concat hinsert

/-- The second statement starts. -/
theorem Executed.startPurchases (h : Executed pg s i events (.insertEvents []))
    (hcandidates : candidates = events.filter fun e => e.purchase.isSome &&
      e.eventId ∈ ((s.gameEvents.own i).map GameEventRow.eventId).toFinset) :
    Executed pg s i events (.insertPurchases candidates candidates) := by
  obtain ⟨hsplit, hbound, hinserted, hpurchases⟩ | ⟨⟩ := h
  rw [List.append_nil] at hsplit
  subst hsplit
  exact .insertPurchases hbound hinserted hcandidates (List.nil_append _).symm
    (fun _ he => absurd he List.not_mem_nil) hpurchases

/-- One more purchase. -/
theorem Executed.insertPurchase {p : PurchaseRow} {purchases : SharedTable ℕ PurchaseRow}
    (h : Executed pg s i events (.insertPurchases candidates (e :: todo)))
    (hp : boundPurchase pg e = some p)
    (hinsert : s.purchases.insert? i PurchaseRow.orderId p = some purchases) :
    Executed pg { s with purchases := purchases } i events
      (.insertPurchases candidates todo) := by
  obtain ⟨⟩ | ⟨hbound, hinserted, hstored, hsplit, hboundPurchases, hpurchases⟩ := h
  rename_i done
  have hsplit' : candidates = (done ++ [e]) ++ todo := by
    rw [hsplit, List.append_assoc]
    rfl
  refine .insertPurchases hbound hinserted hstored hsplit' (fun e' he' => ?_) ?_
  · rcases List.mem_append.mp he' with he' | he'
    · exact hboundPurchases e' he'
    · rw [List.mem_singleton.mp he', hp, Option.isSome_some]
  · rw [List.filterMap_append, List.filterMap_cons_some hp]
    exact hpurchases.concat hinsert

end Statements

/-! ### A commit -/

section Commit

variable {db : Database} {candidates : List NormalizedEvent}

/-- What has been inserted when the transaction commits is what `storeBatch` inserts into the
committed tables. -/
theorem Executed.commit (h : Executed pg s i events (.insertPurchases candidates []))
    (hcommitted : s.committed = db.toTables)
    (hcanon : ∀ e ∈ events, e.eventId.toLowerCase = e.eventId)
    (hnodup : (events.map NormalizedEvent.eventId).Nodup) :
    Storable pg db.toTables events ∧
      s.gameEvents.own i = (newEvents db.toTables events).filterMap (gameEventRow pg) ∧
      s.purchases.own i = newPurchases pg db.toTables (newEvents db.toTables events) ∧
      candidates = (newEvents db.toTables events).filter fun e => e.purchase.isSome := by
  obtain ⟨⟩ | ⟨hbound, hinserted, hstored, hsplit, hboundPurchases, hpurchases⟩ := h
  rw [List.append_nil] at hsplit
  subst hsplit
  have hgameEvents : s.gameEvents.committed = db.gameEvents := congrArg Tables.gameEvents hcommitted
  have horders : s.purchases.committed = db.purchases := congrArg Tables.purchases hcommitted
  obtain ⟨rows, hrows⟩ := exists_rows hbound
  have hown : s.gameEvents.own i
      = (newEvents db.toTables events).filterMap (gameEventRow pg) := by
    rw [← firstNew_rows db hrows hcanon hnodup, ← filterMap_rows hrows, Tables.eventIds,
      ← hgameEvents]
    exact hinserted
  have hsub : ∀ e ∈ newEvents db.toTables events, e ∈ events := fun e he =>
    firstNew_sublist.mem he
  have hcandidates : candidates
      = (newEvents db.toTables events).filter fun e => e.purchase.isSome := by
    rw [hstored, hown]
    refine candidates_eq hnodup ?_
    rw [map_eventId_rows (fun e he => hbound e (hsub e he)) fun e he => hcanon e (hsub e he)]
  refine ⟨⟨hbound, fun e he hpurchase => ?_⟩, hown, ?_, hcandidates⟩
  · exact hboundPurchases e (hcandidates ▸ List.mem_filter.mpr ⟨he, hpurchase⟩)
  · rw [newPurchases, ← filterMap_candidates, ← hcandidates, Tables.orderIds, ← horders]
    exact hpurchases

/-- An answer counts what validation makes of its batch, and what the transaction has returned. -/
structure Counted (batch : Batch) (accepted : List NormalizedEvent)
    (rejected : List RejectedEvent) (result : StoreBatchResult) (response : EventBatchResponse) :
    Prop where
  batchId : response.batchId = batch.batchId
  receivedCount : response.receivedCount = batch.events.length
  acceptedCount : response.acceptedCount = accepted.length
  storedCount : response.storedCount = result.storedCount
  duplicateCount : response.duplicateCount = accepted.length - result.storedCount
  orderDuplicateCount : response.orderDuplicateCount = result.orderDuplicateCount
  rejectedCount : response.rejectedCount = rejected.length
  rejections : response.rejected = rejected

def Answers (L : Libraries) (x : Exchange) (result : StoreBatchResult) : Prop :=
  ∃ accepted rejected response, validateEvents L 0 x.batch.events = some (accepted, rejected) ∧
    x.answer = .ok response ∧ Counted x.batch accepted rejected result response

/-- **A commit does what serving the batch does** in the tables that are committed by then. -/
theorem Executing.commit {statement : Statement} {batchId : JsString} {raws : List Json}
    (h : Executing L pg s i (some raws) ⟨events, statement⟩)
    (hstatement : statement = .insertPurchases candidates [])
    (hcommitted : s.committed = db.toTables) :
    (serve L pg db ⟨batchId, raws, true⟩).after.toTables
        = ⟨s.gameEvents.visible i, s.purchases.visible i⟩ ∧
      Answers L (serve L pg db ⟨batchId, raws, true⟩) {
        storedEventIds := ((s.gameEvents.own i).map GameEventRow.eventId).toFinset
        purchaseStoredEventIds := ((s.purchases.own i).map PurchaseRow.eventId).toFinset
        purchaseCandidateCount := candidates.length } := by
  obtain ⟨⟨raws', accepted, rejected, hraws, hvalid, hevents, hne⟩, hexecuted⟩ := h
  obtain rfl := Option.some.inj hraws
  obtain rfl : events = firstNew NormalizedEvent.eventId [] accepted := hevents
  have hcanon := canonical_unique hvalid
  obtain ⟨hstorable, hown, hpurchases, hcandidates⟩ :=
    (hstatement ▸ hexecuted).commit hcommitted hcanon nodup_firstNew
  rw [newEvents_unique] at hown hpurchases hcandidates
  have hcommits : Commits pg true db.toTables accepted := .inr ⟨rfl, hstorable⟩
  have hserve : ingest L pg true batchId raws db.toTables = _ :=
    ingest_of_commits hvalid hcommits
  have hsub : ∀ e ∈ newEvents db.toTables accepted,
      e ∈ firstNew NormalizedEvent.eventId [] accepted := fun e he =>
    firstNew_sublist.mem (newEvents_unique db.toTables accepted ▸ he)
  have hcanonAccepted := canonical_of_validateEvents hvalid
  constructor
  · show (ingest L pg true batchId raws db.toTables).2 = _
    rw [hserve, Tables.store, SharedTable.visible, SharedTable.visible, hown, hpurchases]
    have hgameEvents : s.gameEvents.committed = db.gameEvents :=
      congrArg Tables.gameEvents hcommitted
    have hold : s.purchases.committed = db.purchases := congrArg Tables.purchases hcommitted
    rw [hgameEvents, hold]
  · have hresult : (⟨((s.gameEvents.own i).map GameEventRow.eventId).toFinset,
        ((s.purchases.own i).map PurchaseRow.eventId).toFinset, candidates.length⟩ :
        StoreBatchResult) = storeResult pg db.toTables (newEvents db.toTables accepted) := by
      rw [hown, hpurchases, hcandidates, storeResult,
        map_eventId_rows (fun e he => hstorable.gameEvents e (hsub e he))
          fun e he => hcanon e (hsub e he)]
    have hstored : (newEvents db.toTables accepted).length =
        (storeResult pg db.toTables (newEvents db.toTables accepted)).storedCount := by
      rw [StoreBatchResult.storedCount, card_storedEventIds]
    refine ⟨accepted, rejected, _, hvalid, congrArg Prod.fst hserve, ?_⟩
    rw [hresult]
    constructor
    case storedCount => exact hstored
    case duplicateCount => rw [responseOf, hstored]
    case orderDuplicateCount =>
      rw [StoreBatchResult.orderDuplicateCount, card_purchaseStoredEventIds _ hcanonAccepted,
        responseOf, storeResult]
    all_goals rfl

end Commit

/-! ### Every interleaving -/

section Run

variable {db : Database} {batchId : JsString} {r : Interleaving}

theorem ingestAll_concat (batches : List Batch) (b : Batch) :
    ingestAll L pg db (batches ++ [b]) = (serve L pg (ingestAll L pg db batches) b).after := by
  rw [ingestAll, List.foldl_append]
  rfl

theorem exchanges_concat (batches : List Batch) (b : Batch) :
    exchanges L pg db (batches ++ [b])
      = exchanges L pg db batches ++ [serve L pg (ingestAll L pg db batches) b] := by
  induction batches generalizing db with
  | nil => rfl
  | cons first batches ih =>
    rw [List.cons_append, exchanges, ih]
    rfl

/-- The committed tables and the results are those of the batches served so far. -/
structure Serial (L : Libraries) (pg : Postgres) (db : Database) (r : Interleaving) : Prop where
  tables : r.server.committed = (ingestAll L pg db r.served).toTables
  answers : List.Forall₂ (Answers L) (exchanges L pg db r.served) r.results

theorem map_batch_exchanges (batches : List Batch) :
    (exchanges L pg db batches).map Exchange.batch = batches := by
  induction batches generalizing db with
  | nil => rfl
  | cons b batches ih => exact congrArg (b :: ·) ih

/-- Every served batch has been delivered. -/
theorem Serial.delivered_eq (h : Serial L pg .empty r) :
    Metrics.delivered L pg r.served
      = (r.served.flatMap Batch.events).filterMap (acceptedEvent? L) := by
  have hdelivered : ∀ (xs : List Exchange) (results : List StoreBatchResult),
      List.Forall₂ (Answers L) xs results →
        xs.flatMap Exchange.delivered = (xs.map Exchange.batch).flatMap Batch.events := by
    intro xs results hanswers
    induction hanswers with
    | nil => rfl
    | cons hanswer _ ih =>
      obtain ⟨-, -, response, -, hok, -⟩ := hanswer
      rw [List.flatMap_cons, List.map_cons, List.flatMap_cons, ih, Exchange.delivered, hok]
  rw [Metrics.delivered, Metrics.deliveredFrom, hdelivered _ _ h.answers, map_batch_exchanges]

structure SerialInv (L : Libraries) (pg : Postgres) (db : Database) (r : Interleaving) : Prop
    extends Serial L pg db r where
  eventIds : r.server.gameEvents.Unique GameEventRow.eventId
  orderIds : r.server.purchases.Unique PurchaseRow.orderId
  transactions : ∀ i, Underway L pg r.server i (r.batches i) (r.server.transactions i)

theorem serialInv_start (db : Database) : SerialInv L pg db (.start db) where
  tables := rfl
  answers := .nil
  eventIds := by
    show ((db.gameEvents ++ []).map GameEventRow.eventId).Nodup
    rw [List.append_nil]
    exact db.schema.eventIds_nodup
  orderIds := by
    show ((db.purchases ++ []).map PurchaseRow.orderId).Nodup
    rw [List.append_nil]
    exact db.schema.orderIds_nodup
  transactions _ := ⟨rfl, rfl⟩

/-- A step that commits nothing: one transaction moves, the others stay. -/
theorem SerialInv.move {s : Server} {tx : Option Transaction} {batches : ℕ → Option (List Json)}
    (h : SerialInv L pg db r) (hcommitted : s.committed = r.server.committed)
    (heventIds : s.gameEvents.Unique GameEventRow.eventId)
    (horderIds : s.purchases.Unique PurchaseRow.orderId)
    (htransactions : s.transactions = r.server.transactions)
    (hleaves : ∀ j, j ≠ i → Leaves r.server s j) (hbatches : ∀ j, j ≠ i → batches j = r.batches j)
    (hi : Underway L pg s i (batches i) tx) :
    SerialInv L pg db ⟨s.setTransaction i tx, batches, r.served, r.results⟩ where
  tables := hcommitted.trans h.tables
  answers := h.answers
  eventIds := heventIds
  orderIds := horderIds
  transactions j := by
    refine Underway.setTransaction ?_
    show Underway L pg s j (batches j) (Function.update s.transactions i tx j)
    by_cases hj : j = i
    · subst hj
      rwa [Function.update_self]
    · rw [Function.update_of_ne hj, htransactions, hbatches j hj]
      exact (h.transactions j).leaves (hleaves j hj)

theorem SerialInv.executing {tx : Transaction} (h : SerialInv L pg db r)
    (hrunning : r.server.transactions i = some tx) :
    Executing L pg r.server i (r.batches i) tx := by
  have hi := h.transactions i
  rwa [hrunning] at hi

theorem serialInv_step (h : SerialInv L pg db r) (move : ℕ × Action) :
    SerialInv L pg db (r.step L pg batchId move) := by
  obtain ⟨i, action⟩ := move
  rw [Interleaving.step]
  cases hstep : step? L pg r.server i action with
  | none => exact h
  | some result =>
  obtain ⟨o, s⟩ := result
  cases action with
  | start batch =>
    simp only [step?] at hstep
    split at hstep
    · cases hstep
    · rename_i hidle
      obtain ⟨⟨accepted, rejected⟩, hvalid, hstep⟩ := Option.bind_eq_some_iff.mp hstep
      split_ifs at hstep with hempty
      cases hstep
      have hi := h.transactions i
      rw [hidle] at hi
      simp only [Option.bind_none, Option.toList_none, List.map_nil, List.append_nil]
      refine h.move rfl h.eventIds h.orderIds rfl (fun _ _ => .refl)
        (fun j hj => Function.update_of_ne hj _ _) ?_
      rw [Function.update_self]
      refine ⟨⟨batch, accepted, rejected, rfl, hvalid, rfl, fun hnil => hempty ?_⟩,
        .insertEvents (List.nil_append _).symm (fun _ he => absurd he List.not_mem_nil) hi.1 hi.2⟩
      exact List.isEmpty_iff.mpr hnil
  | row =>
    simp only [step?] at hstep
    split at hstep
    · rename_i hrunning
      obtain ⟨row, hrow, hstep⟩ := Option.bind_eq_some_iff.mp hstep
      obtain ⟨gameEvents, hinsert, hstep⟩ := Option.bind_eq_some_iff.mp hstep
      cases hstep
      have hi := h.executing hrunning
      obtain ⟨hcommitted, hown⟩ := SharedTable.frame_insert? hinsert
      simp only [Option.bind_none, Option.toList_none, List.map_nil, List.append_nil]
      refine h.move (congrArg (Tables.mk · _) hcommitted) (h.eventIds.insert? hinsert) h.orderIds
        rfl (fun j hj => ⟨hown j hj, rfl, fun _ hdone => hdone.insert? hinsert hj,
          fun _ hdone => hdone⟩) (fun _ _ => rfl) ?_
      exact ⟨hi.batch, hi.executed.insertEvent hrow hinsert⟩
    · rename_i hrunning
      obtain ⟨p, hp, hstep⟩ := Option.bind_eq_some_iff.mp hstep
      obtain ⟨purchases, hpurchases, hstep⟩ := Option.bind_eq_some_iff.mp hstep
      cases hstep
      obtain ⟨purchases', hinsert, hprimary⟩ := Option.bind_eq_some_iff.mp hpurchases
      split_ifs at hprimary
      obtain rfl := Option.some.inj hprimary
      have hi := h.executing hrunning
      obtain ⟨hcommitted, hown⟩ := SharedTable.frame_insert? hinsert
      simp only [Option.bind_none, Option.toList_none, List.map_nil, List.append_nil]
      refine h.move (congrArg (Tables.mk _) hcommitted) h.eventIds (h.orderIds.insert? hinsert)
        rfl (fun j hj => ⟨rfl, hown j hj, fun _ hdone => hdone,
          fun _ hdone => hdone.insert? hinsert hj⟩) (fun _ _ => rfl) ?_
      exact ⟨hi.batch, hi.executed.insertPurchase hp hinsert⟩
    · cases hstep
  | next =>
    simp only [step?] at hstep
    split at hstep
    · rename_i hrunning
      cases hstep
      have hi := h.executing hrunning
      simp only [Option.bind_none, Option.toList_none, List.map_nil, List.append_nil]
      exact h.move rfl h.eventIds h.orderIds rfl (fun _ _ => .refl) (fun _ _ => rfl)
        ⟨hi.batch, hi.executed.startPurchases rfl⟩
    · rename_i hrunning
      split_ifs at hstep
      cases hstep
      have hi := h.executing hrunning
      obtain ⟨raws, -, -, hraws, -⟩ := hi.batch
      rw [hraws] at hi
      obtain ⟨hafter, hanswers⟩ := (hi.commit rfl h.tables :
        _ ∧ Answers L (serve L pg _ ⟨batchId, raws, true⟩) _)
      simp only [Option.bind_some, hraws, Option.toList_some, List.map_cons, List.map_nil]
      refine ⟨⟨?_, ?_⟩, h.eventIds.commit, h.orderIds.commit, fun j => ?_⟩
      · rw [ingestAll_concat]
        exact hafter.symm
      · rw [exchanges_concat]
        exact List.rel_append h.answers (.cons hanswers .nil)
      · refine Underway.setTransaction ?_
        show Underway L pg _ j (r.batches j) (Function.update r.server.transactions i none j)
        by_cases hj : j = i
        · subst hj
          rw [Function.update_self]
          exact ⟨SharedTable.own_commit_self, SharedTable.own_commit_self⟩
        · rw [Function.update_of_ne hj]
          exact (h.transactions j).leaves ⟨SharedTable.own_commit_of_ne hj,
            SharedTable.own_commit_of_ne hj, fun _ hdone => hdone.commit h.eventIds hj,
            fun _ hdone => hdone.commit h.orderIds hj⟩
    · cases hstep
  | abort =>
    simp only [step?] at hstep
    split at hstep
    · cases hstep
    · cases hstep
      simp only [Option.bind_none, Option.toList_none, List.map_nil, List.append_nil]
      exact h.move (s := { r.server with
          gameEvents := r.server.gameEvents.abort i
          purchases := r.server.purchases.abort i }) rfl h.eventIds.abort h.orderIds.abort rfl
        (fun j hj => ⟨SharedTable.own_abort_of_ne hj, SharedTable.own_abort_of_ne hj,
          fun _ hdone => hdone.abort hj, fun _ hdone => hdone.abort hj⟩) (fun _ _ => rfl)
        ⟨SharedTable.own_abort_self, SharedTable.own_abort_self⟩

variable (L pg) in
/-- Only what has been started is served. -/
theorem served_step {started : List (ℕ × Action)}
    (hbatches : ∀ i raws, r.batches i = some raws → (i, .start raws) ∈ started)
    (hserved : ∀ b ∈ r.served, ∃ i raws, b = ⟨batchId, raws, true⟩ ∧ (i, .start raws) ∈ started)
    (move : ℕ × Action) :
    (∀ i raws, (r.step L pg batchId move).batches i = some raws →
        (i, .start raws) ∈ started ++ [move]) ∧
      ∀ b ∈ (r.step L pg batchId move).served, ∃ i raws, b = ⟨batchId, raws, true⟩ ∧
        (i, .start raws) ∈ started ++ [move] := by
  have hleft : ∀ m ∈ started, m ∈ started ++ [move] := fun m hm => List.mem_append_left _ hm
  have hbatches' : ∀ i raws, r.batches i = some raws → (i, .start raws) ∈ started ++ [move] :=
    fun i raws h => hleft _ (hbatches i raws h)
  have hserved' : ∀ b ∈ r.served, ∃ i raws, b = ⟨batchId, raws, true⟩ ∧
      (i, .start raws) ∈ started ++ [move] := fun b hb => by
    obtain ⟨i, raws, hb, hmem⟩ := hserved b hb
    exact ⟨i, raws, hb, hleft _ hmem⟩
  obtain ⟨i, action⟩ := move
  rw [Interleaving.step]
  cases step? L pg r.server i action with
  | none => exact ⟨hbatches', hserved'⟩
  | some result =>
    obtain ⟨o, s⟩ := result
    constructor
    · cases action with
      | start batch =>
        intro j raws hraws
        simp only [Function.update_apply] at hraws
        split_ifs at hraws with hj
        · obtain rfl := Option.some.inj hraws
          exact List.mem_append_right _ (List.mem_singleton.mpr (by rw [hj]))
        · exact hbatches' j raws hraws
      | row => exact hbatches'
      | next => exact hbatches'
      | abort => exact hbatches'
    · intro b hb
      rcases List.mem_append.mp hb with hb | hb
      · exact hserved' b hb
      · obtain ⟨raws, hraws, rfl⟩ := List.mem_map.mp hb
        obtain ⟨-, -, hraws⟩ := Option.bind_eq_some_iff.mp (Option.mem_toList.mp hraws)
        exact ⟨i, raws, rfl, hbatches' i raws hraws⟩

theorem served_run {started : List (ℕ × Action)}
    (hbatches : ∀ i raws, r.batches i = some raws → (i, .start raws) ∈ started)
    (hserved : ∀ b ∈ r.served, ∃ i raws, b = ⟨batchId, raws, true⟩ ∧ (i, .start raws) ∈ started)
    (moves : List (ℕ × Action)) :
    ∀ b ∈ (r.run L pg batchId moves).served, ∃ i raws, b = ⟨batchId, raws, true⟩ ∧
      (i, .start raws) ∈ started ++ moves := by
  induction moves generalizing r started with
  | nil =>
    rw [List.append_nil]
    exact hserved
  | cons move moves ih =>
    have hstep := served_step L pg hbatches hserved move
    have h := ih hstep.1 hstep.2
    rw [List.append_assoc, List.singleton_append] at h
    exact h

theorem served_start (moves : List (ℕ × Action)) :
    ∀ b ∈ ((Interleaving.start db).run L pg batchId moves).served, ∃ i raws,
      b = ⟨batchId, raws, true⟩ ∧ (i, .start raws) ∈ moves := by
  have hbatches : ∀ i raws, (Interleaving.start db).batches i = some raws →
      (i, Action.start raws) ∈ [] := fun _ _ h => by cases h
  exact served_run hbatches (fun _ h => absurd h List.not_mem_nil) moves

/-- By induction on the steps. -/
theorem serialInv_run (h : SerialInv L pg db r) (moves : List (ℕ × Action)) :
    SerialInv L pg db (r.run L pg batchId moves) := by
  induction moves generalizing r with
  | nil => exact h
  | cons move moves ih => exact ih (serialInv_step h move)

end Run

/-- **Concurrent batches are serializable in the order of their commits.** However transactions
insert, wait, commit and abort among each other, the committed tables are those of a service
that serves some of the batches that were started, one at a time, each with the answer whose
counts its validation and its transaction have returned. -/
theorem serializable (L : Libraries) (pg : Postgres) (batchId : JsString) (db : Database)
    (moves : List (ℕ × Action)) :
    Serial L pg db ((Interleaving.start db).run L pg batchId moves) ∧
      ∀ b ∈ ((Interleaving.start db).run L pg batchId moves).served, ∃ i raws,
        b = ⟨batchId, raws, true⟩ ∧ (i, .start raws) ∈ moves :=
  ⟨(serialInv_run (serialInv_start db) moves).toSerial,
    served_start moves⟩

/-- **Metrics do not depend on how transactions interleave.** Two runs that commit the same
valid events, in whatever order, grouping and number, have the same five metrics. -/
theorem interleaving_independent (L : Libraries) (pg : Postgres) (batchId : JsString)
    (fl : ℚ → ℚ) (collation : Metrics.Collation) (moves moves' : List (ℕ × Action))
    (hsame : ∀ e,
      e ∈ Metrics.delivered L pg ((Interleaving.start .empty).run L pg batchId moves).served ↔
        e ∈ Metrics.delivered L pg ((Interleaving.start .empty).run L pg batchId moves').served)
    (hagree : Metrics.Agreeing
      (Metrics.delivered L pg ((Interleaving.start .empty).run L pg batchId moves).served))
    (hcollide : Metrics.CollisionsAgree
      (Metrics.delivered L pg ((Interleaving.start .empty).run L pg batchId moves).served)) :
    Metrics.SameMetrics fl collation
      ((Interleaving.start .empty).run L pg batchId moves).server.committed
      ((Interleaving.start .empty).run L pg batchId moves').server.committed := by
  rw [(serialInv_run (serialInv_start .empty) moves).tables,
    (serialInv_run (serialInv_start .empty) moves').tables]
  exact Metrics.sameMetrics_of_sameEvidence fl collation
    (Metrics.sameEvidence_of_reflects (Metrics.reflects_delivered hagree)
      (Metrics.reflects_delivered (hagree.congr hsame)) hsame hagree hcollide)

/-- Two transactions store the same login: the second waits for the first and then skips it. -/
def resentLogin : List (ℕ × Action) :=
  [(0, .start [sampleLogin]), (1, .start [sampleLogin]), (1, .row), (0, .row), (1, .next),
    (1, .next), (0, .row), (0, .next), (0, .next)]

def onceLogin : List (ℕ × Action) :=
  [(0, .start [sampleLogin]), (0, .row), (0, .next), (0, .next)]

theorem interleaving_independent_resent : Metrics.SameMetrics id Metrics.codeUnits
    ((Interleaving.start .empty).run sampleLibraries samplePostgres newYear
      resentLogin).server.committed
    ((Interleaving.start .empty).run sampleLibraries samplePostgres newYear
      onceLogin).server.committed := by
  obtain ⟨login, hlogin, hnone⟩ : ∃ e,
      validateEvent sampleLibraries sampleLogin = some (.accepted e) ∧ e.purchase = none :=
    exists_accepted (by decide +kernel)
  have haccepted := acceptedEvent?_eq_some.mpr hlogin
  -- every transaction of the two runs stores the login
  have hevent : ∀ moves : List (ℕ × Action),
      (∀ i raws, (i, .start raws) ∈ moves → raws = [sampleLogin]) →
      ((Interleaving.start .empty).run sampleLibraries samplePostgres newYear moves).served ≠ [] →
      ∀ e, e ∈ Metrics.delivered sampleLibraries samplePostgres ((Interleaving.start .empty).run
        sampleLibraries samplePostgres newYear moves).served ↔ e = login := by
    intro moves hmoves hne e
    rw [(serialInv_run (serialInv_start .empty) moves).delivered_eq]
    have hserved : ∀ b ∈ ((Interleaving.start .empty).run sampleLibraries samplePostgres newYear
        moves).served, b.events = [sampleLogin] := by
      intro b hb
      obtain ⟨i, raws, rfl, hmem⟩ := served_start moves b hb
      exact hmoves i raws hmem
    constructor
    · intro he
      obtain ⟨raw, hraw, he⟩ := List.mem_filterMap.mp he
      obtain ⟨b, hb, hraw⟩ := List.mem_flatMap.mp hraw
      rw [hserved b hb, List.mem_singleton] at hraw
      rw [hraw, haccepted] at he
      exact (Option.some.inj he).symm
    · rintro rfl
      obtain ⟨b, hb⟩ := List.exists_mem_of_ne_nil _ hne
      refine List.mem_filterMap.mpr ⟨sampleLogin, List.mem_flatMap.mpr ⟨b, hb, ?_⟩, haccepted⟩
      rw [hserved b hb]
      exact List.mem_singleton_self _
  have hresent := hevent resentLogin
    (fun i raws h => by
      simp only [resentLogin, List.mem_cons, Prod.mk.injEq, Action.start.injEq, reduceCtorEq,
        and_false, List.not_mem_nil, or_false] at h
      exact h.elim And.right And.right)
    (List.ne_nil_of_length_pos (by decide +kernel))
  have honce := hevent onceLogin
    (fun i raws h => by
      simp only [onceLogin, List.mem_cons, Prod.mk.injEq, Action.start.injEq, reduceCtorEq,
        and_false, List.not_mem_nil, or_false] at h
      exact h.right)
    (List.ne_nil_of_length_pos (by decide +kernel))
  refine interleaving_independent sampleLibraries samplePostgres newYear id Metrics.codeUnits _ _
    (fun e => (hresent e).trans (honce e).symm) ⟨fun e he e' he' _ => ?_, fun e he e' _ p hp => ?_⟩
    fun e he e' _ p hp => ?_
  · rw [(hresent e).mp he, (hresent e').mp he']
  · rw [(hresent e).mp he, hnone] at hp
    cases hp
  · rw [(hresent e).mp he, hnone] at hp
    cases hp

end Ingestion
