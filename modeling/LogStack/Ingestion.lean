/-
Ingesting a batch.

* `ingest` — `IngestionService.ingest`: validate each event, drop repeated ones, store the
  rest in one transaction, count;
* `ingest_of_commits` — a batch that commits has stored its new events, and its counts say how
  many;
* `mem_eventIds_of_ok` — after a 200 the id of every accepted event is in `game_events`;
* `ingest_of_not_commits`, `ingest_failed_iff` — any other batch has left the tables as they were.
-/
import LogStack.Storage

open KeyedInsert

namespace Ingestion

structure RejectedEvent where
  index : ℕ
  eventId : Option JsString
  code : JsString
  message : JsString

structure EventBatchResponse where
  batchId : JsString
  receivedCount : ℕ
  acceptedCount : ℕ
  storedCount : ℕ
  duplicateCount : ℤ
  orderDuplicateCount : ℤ
  rejectedCount : ℕ
  rejected : List RejectedEvent

/-- How a batch is answered: 200, 503 `STORAGE_UNAVAILABLE`, or 500 where validation throws. -/
inductive Answer where
  | ok (response : EventBatchResponse)
  | unavailable
  | failed

/-- The counters that `ingest` takes from the result of the transaction. -/
def StoreBatchResult.storedCount (result : StoreBatchResult) : ℕ := result.storedEventIds.card

def StoreBatchResult.orderDuplicateCount (result : StoreBatchResult) : ℤ :=
  result.purchaseCandidateCount - result.purchaseStoredEventIds.card

variable (L : Libraries) (pg : Postgres)

/-- The first loop of `ingest`, from the event at `index` on. -/
def validateEvents : ℕ → List Json → Option (List NormalizedEvent × List RejectedEvent)
  | _, [] => some ([], [])
  | index, raw :: rest => do
    let result ← validateEvent L raw
    let (accepted, rejected) ← validateEvents (index + 1) rest
    match result with
    | .accepted event => some (event :: accepted, rejected)
    | .rejected eventId code message =>
      some (accepted, ⟨index, eventId, code, message⟩ :: rejected)

/-- `IngestionService.ingest`, with the tables it leaves. The transaction fails when the
database is not `reachable`, and when a statement raises an error. -/
def ingest (reachable : Bool) (batchId : JsString) (events : List Json) (db : Tables) :
    Answer × Tables :=
  match validateEvents L 0 events with
  | none => (.failed, db)
  | some (accepted, rejected) =>
    let unique := firstNew NormalizedEvent.eventId [] accepted
    let respond (storedCount : ℕ) (orderDuplicateCount : ℤ) : EventBatchResponse := {
      batchId := batchId
      receivedCount := events.length
      acceptedCount := accepted.length
      storedCount := storedCount
      duplicateCount := accepted.length - storedCount
      orderDuplicateCount := orderDuplicateCount
      rejectedCount := rejected.length
      rejected := rejected }
    if unique.isEmpty then (.ok (respond 0 0), db)
    else
      match if reachable then storeBatch pg unique db else none with
      | none => (.unavailable, db)
      | some (result, db') =>
        (.ok (respond result.storedCount result.orderDuplicateCount), db')

/-! ### Validation of a batch -/

variable {L pg} {raws : List Json} {index : ℕ} {accepted : List NormalizedEvent}
  {rejected : List RejectedEvent}

/-- The event that an accepted raw event becomes. -/
def acceptedEvent? (L : Libraries) (raw : Json) : Option NormalizedEvent :=
  match validateEvent L raw with
  | some (.accepted event) => some event
  | _ => none

theorem acceptedEvent?_eq_some {raw : Json} {event : NormalizedEvent} :
    acceptedEvent? L raw = some event ↔ validateEvent L raw = some (.accepted event) := by
  unfold acceptedEvent?
  cases validateEvent L raw with
  | none => simp
  | some result => cases result <;> simp

/-- One event after another: what validating a batch comes to. -/
theorem validateEvents_cons {raw : Json} :
    validateEvents L index (raw :: raws) = some (accepted, rejected) ↔
      ∃ result accepted' rejected', validateEvent L raw = some result ∧
        validateEvents L (index + 1) raws = some (accepted', rejected') ∧
        match result with
        | .accepted event => accepted = event :: accepted' ∧ rejected = rejected'
        | .rejected eventId code message =>
          accepted = accepted' ∧ rejected = ⟨index, eventId, code, message⟩ :: rejected' := by
  rw [validateEvents]
  constructor
  · intro h
    obtain ⟨result, hresult, h⟩ := Option.bind_eq_some_iff.mp h
    obtain ⟨⟨accepted', rejected'⟩, hrest, h⟩ := Option.bind_eq_some_iff.mp h
    refine ⟨result, accepted', rejected', hresult, hrest, ?_⟩
    cases result with
    | accepted event => simpa [eq_comm] using h
    | rejected eventId code message => simpa [eq_comm] using h
  · rintro ⟨result, accepted', rejected', hresult, hrest, h⟩
    rw [hresult, hrest]
    cases result with
    | accepted event =>
      obtain ⟨rfl, rfl⟩ := h
      rfl
    | rejected eventId code message =>
      obtain ⟨rfl, rfl⟩ := h
      rfl

theorem accepted_eq (h : validateEvents L index raws = some (accepted, rejected)) :
    accepted = raws.filterMap (acceptedEvent? L) := by
  induction raws generalizing index accepted rejected with
  | nil =>
    simp only [validateEvents, Option.some.injEq, Prod.mk.injEq] at h
    exact h.1.symm
  | cons raw raws ih =>
    obtain ⟨result, accepted', rejected', hresult, hrest, h⟩ := validateEvents_cons.mp h
    cases result with
    | accepted event =>
      obtain ⟨rfl, -⟩ := h
      rw [List.filterMap_cons_some (acceptedEvent?_eq_some.mpr hresult), ih hrest]
    | rejected eventId code message =>
      obtain ⟨rfl, -⟩ := h
      rw [List.filterMap_cons_none (by simp [acceptedEvent?, hresult]), ih hrest]

/-- Every event is accepted or rejected. -/
theorem length_accepted_add_rejected
    (h : validateEvents L index raws = some (accepted, rejected)) :
    accepted.length + rejected.length = raws.length := by
  induction raws generalizing index accepted rejected with
  | nil =>
    simp only [validateEvents, Option.some.injEq, Prod.mk.injEq] at h
    simp [← h.1, ← h.2]
  | cons raw raws ih =>
    obtain ⟨result, accepted', rejected', -, hrest, h⟩ := validateEvents_cons.mp h
    have hlength := ih hrest
    cases result with
    | accepted event =>
      obtain ⟨rfl, rfl⟩ := h
      simp only [List.length_cons]
      omega
    | rejected eventId code message =>
      obtain ⟨rfl, rfl⟩ := h
      simp only [List.length_cons]
      omega

/-- Where every event is accepted, none is rejected. -/
theorem validateEvents_of_accepted (index : ℕ)
    (h : ∀ raw ∈ raws, ∃ event, validateEvent L raw = some (.accepted event)) :
    ∃ accepted, validateEvents L index raws = some (accepted, []) := by
  induction raws generalizing index with
  | nil => exact ⟨[], rfl⟩
  | cons raw raws ih =>
    obtain ⟨⟨event, hevent⟩, hrest⟩ := List.forall_mem_cons.mp h
    obtain ⟨accepted, haccepted⟩ := ih (index + 1) hrest
    exact ⟨event :: accepted,
      validateEvents_cons.mpr ⟨_, accepted, [], hevent, haccepted, rfl, rfl⟩⟩

theorem validateEvents_eq_none (index : ℕ) :
    validateEvents L index raws = none ↔ ∃ raw ∈ raws, ¬Copyable L raw := by
  induction raws generalizing index with
  | nil => simp [validateEvents]
  | cons raw raws ih =>
    rw [validateEvents, List.exists_mem_cons_iff, ← isSome_validateEvent]
    cases hraw : validateEvent L raw with
    | none => simp
    | some result =>
      cases hrest : validateEvents L (index + 1) raws with
      | none => simpa [hrest] using (ih (index + 1)).mp hrest
      | some accepted =>
        have hnone : ¬∃ raw ∈ raws, ¬Copyable L raw := by
          rw [← ih (index + 1), hrest]
          simp
        cases result <;> simpa using hnone

theorem exists_validateEvents (index : ℕ) (h : ∀ raw ∈ raws, Copyable L raw) :
    ∃ accepted rejected, validateEvents L index raws = some (accepted, rejected) := by
  cases hvalid : validateEvents L index raws with
  | none =>
    obtain ⟨raw, hraw, hthrows⟩ := (validateEvents_eq_none index).mp hvalid
    exact absurd (h raw hraw) hthrows
  | some result => exact ⟨result.1, result.2, rfl⟩

theorem canonical_of_acceptedEvent? {raw : Json} {event : NormalizedEvent}
    (h : acceptedEvent? L raw = some event) : event.eventId.toLowerCase = event.eventId := by
  obtain ⟨s, -, hs⟩ := (checked_of_accepted (acceptedEvent?_eq_some.mp h)).1.eventId
  rw [hs, JsString.toLowerCase_idem]

/-! ### What is answered -/

/-- The response to a batch: the counts are those of the new events and purchases. -/
def responseOf (pg : Postgres) (batchId : JsString) (events : List Json) (db : Tables)
    (accepted : List NormalizedEvent) (rejected : List RejectedEvent) : EventBatchResponse where
  batchId := batchId
  receivedCount := events.length
  acceptedCount := accepted.length
  storedCount := (newEvents db accepted).length
  duplicateCount := accepted.length - (newEvents db accepted).length
  orderDuplicateCount := ((newEvents db accepted).filter fun e => e.purchase.isSome).length
    - (newPurchases pg db (newEvents db accepted)).length
  rejectedCount := rejected.length
  rejected := rejected

variable {db : Database} {reachable : Bool} {batchId : JsString} {events : List Json}

/-- The events that reach the transaction. -/
theorem canonical_unique (h : validateEvents L 0 events = some (accepted, rejected)) :
    ∀ e ∈ firstNew NormalizedEvent.eventId [] accepted, e.eventId.toLowerCase = e.eventId := by
  intro e he
  have hmem := firstNew_sublist.mem he
  rw [accepted_eq h] at hmem
  obtain ⟨raw, -, hraw⟩ := List.mem_filterMap.mp hmem
  exact canonical_of_acceptedEvent? hraw

theorem newEvents_unique (db : Tables) (accepted : List NormalizedEvent) :
    newEvents db (firstNew NormalizedEvent.eventId [] accepted) = newEvents db accepted :=
  firstNew_firstNew (List.nil_subset _)

theorem card_storedEventIds (db : Tables) (accepted : List NormalizedEvent) :
    (storeResult pg db (newEvents db accepted)).storedEventIds.card
      = (newEvents db accepted).length := by
  have hnodup : ((newEvents db accepted).map NormalizedEvent.eventId).Nodup := nodup_firstNew
  rw [storeResult, List.toFinset_card_of_nodup hnodup, List.length_map]

theorem card_purchaseStoredEventIds (db : Tables)
    (hcanon : ∀ e ∈ accepted, e.eventId.toLowerCase = e.eventId) :
    (storeResult pg db (newEvents db accepted)).purchaseStoredEventIds.card
      = (newPurchases pg db (newEvents db accepted)).length := by
  have hsublist : ((newPurchases pg db (newEvents db accepted)).map PurchaseRow.eventId).Sublist
      ((newEvents db accepted).map NormalizedEvent.eventId) :=
    map_eventId_newPurchases db fun e he => hcanon e (firstNew_sublist.mem he)
  have hnodup : ((newEvents db accepted).map NormalizedEvent.eventId).Nodup := nodup_firstNew
  rw [storeResult, List.toFinset_card_of_nodup (hnodup.sublist hsublist), List.length_map]

/-- The batch is answered 200: nothing is to be stored, or the transaction commits. -/
def Commits (pg : Postgres) (reachable : Bool) (db : Tables)
    (accepted : List NormalizedEvent) : Prop :=
  accepted = [] ∨
    reachable = true ∧ Storable pg db (firstNew NormalizedEvent.eventId [] accepted)

theorem store_nil (db : Tables) : db.store pg [] = db := by
  simp [Tables.store, newPurchases]

theorem isEmpty_firstNew {accepted : List NormalizedEvent} :
    (firstNew NormalizedEvent.eventId [] accepted).isEmpty = accepted.isEmpty := by
  cases accepted with
  | nil => rfl
  | cons e es => rw [firstNew_cons_of_notMem List.not_mem_nil]; rfl

/-- **A batch that commits** has stored its new events; the answer counts them. -/
theorem ingest_of_commits (h : validateEvents L 0 events = some (accepted, rejected))
    (hcommits : Commits pg reachable db.toTables accepted) :
    ingest L pg reachable batchId events db.toTables
      = (.ok (responseOf pg batchId events db.toTables accepted rejected),
          db.toTables.store pg (newEvents db.toTables accepted)) := by
  simp only [ingest, h, isEmpty_firstNew]
  by_cases hempty : accepted = []
  · subst hempty
    have hnew : newEvents db.toTables [] = [] := rfl
    rw [if_pos List.isEmpty_nil, responseOf, hnew, store_nil]
    simp [newPurchases]
  · obtain ⟨rfl, hstorable⟩ := hcommits.resolve_left hempty
    have hstore := storeBatch_of_storable (canonical_unique h) nodup_firstNew hstorable
    rw [newEvents_unique] at hstore
    rw [if_neg (by simpa using hempty), if_pos rfl, hstore]
    simp only [StoreBatchResult.storedCount, StoreBatchResult.orderDuplicateCount,
      card_storedEventIds, responseOf]
    rw [card_purchaseStoredEventIds]
    · rfl
    · intro e he
      rw [accepted_eq h] at he
      obtain ⟨raw, -, hraw⟩ := List.mem_filterMap.mp he
      exact canonical_of_acceptedEvent? hraw

/-- A batch that does not commit has changed nothing. -/
theorem ingest_of_not_commits (h : validateEvents L 0 events = some (accepted, rejected))
    (hcommits : ¬Commits pg reachable db.toTables accepted) :
    ingest L pg reachable batchId events db.toTables = (.unavailable, db.toTables) := by
  rw [Commits, not_or, not_and] at hcommits
  simp only [ingest, h, isEmpty_firstNew]
  rw [if_neg (by simpa using hcommits.1)]
  cases reachable with
  | false => rfl
  | true =>
    rw [if_pos rfl, storeBatch_of_not_storable (canonical_unique h) nodup_firstNew
      (hcommits.2 rfl)]

/-- **A batch is answered 500** just when the transformer throws on one of its events; it has
changed nothing. -/
theorem ingest_failed_iff (db : Tables) : ingest L pg reachable batchId events db = (.failed, db) ↔
    ∃ raw ∈ events, ¬Copyable L raw := by
  rw [← validateEvents_eq_none 0]
  constructor
  · intro h
    cases hvalid : validateEvents L 0 events with
    | none => rfl
    | some result =>
      simp only [ingest, hvalid] at h
      by_cases hempty : (firstNew NormalizedEvent.eventId [] result.1).isEmpty = true
      · rw [if_pos hempty] at h
        cases h
      · rw [if_neg hempty] at h
        split at h
        · cases h
        · cases h
  · intro h
    rw [ingest, h]

/-- A batch that is answered 200 has been validated, and has committed. -/
theorem commits_of_ok {response : EventBatchResponse} {db' : Tables}
    (h : ingest L pg reachable batchId events db.toTables = (.ok response, db')) :
    ∃ accepted rejected, validateEvents L 0 events = some (accepted, rejected) ∧
      Commits pg reachable db.toTables accepted ∧
      response = responseOf pg batchId events db.toTables accepted rejected ∧
      db' = db.toTables.store pg (newEvents db.toTables accepted) := by
  cases hvalid : validateEvents L 0 events with
  | none => simp [ingest, hvalid] at h
  | some result =>
    obtain ⟨accepted, rejected⟩ := result
    by_cases hcommits : Commits pg reachable db.toTables accepted
    · rw [ingest_of_commits hvalid hcommits] at h
      cases h
      exact ⟨accepted, rejected, rfl, hcommits, rfl, rfl⟩
    · rw [ingest_of_not_commits hvalid hcommits] at h
      cases h

/-- **After a 200 the id of every accepted event is in `game_events`.** -/
theorem mem_eventIds_of_ok {response : EventBatchResponse} {db' : Tables} {raw : Json}
    {e : NormalizedEvent}
    (h : ingest L pg reachable batchId events db.toTables = (.ok response, db'))
    (hraw : raw ∈ events) (he : validateEvent L raw = some (.accepted e)) :
    e.eventId ∈ db'.eventIds := by
  obtain ⟨accepted, rejected, hvalid, hcommits, -, rfl⟩ := commits_of_ok h
  have haccepted : e ∈ accepted := by
    rw [accepted_eq hvalid]
    exact List.mem_filterMap.mpr ⟨raw, hraw, acceptedEvent?_eq_some.mpr he⟩
  have hsub : ∀ e ∈ newEvents db.toTables accepted,
      e ∈ firstNew NormalizedEvent.eventId [] accepted := fun e he =>
    firstNew_sublist.mem (newEvents_unique db.toTables accepted ▸ he)
  have hrows : ∀ e ∈ newEvents db.toTables accepted, (gameEventRow pg e).isSome = true := by
    intro e he
    rcases hcommits with rfl | ⟨-, hstorable⟩
    · exact absurd he List.not_mem_nil
    · exact hstorable.gameEvents e (hsub e he)
  rw [Tables.eventIds, Tables.store, List.map_append,
    map_eventId_rows hrows fun e he => canonical_unique hvalid e (hsub e he)]
  -- it was there before, or it is the id of a new event
  exact List.mem_append.mpr (mem_known_or haccepted)

variable (L pg) in
/-- Ingesting keeps the constraints of the schema. -/
theorem schema_ingest (db : Database) (reachable : Bool) (batchId : JsString) (events : List Json) :
    (ingest L pg reachable batchId events db.toTables).2.Schema := by
  cases h : validateEvents L 0 events with
  | none =>
    rw [ingest, h]
    exact db.schema
  | some result =>
    obtain ⟨accepted, rejected⟩ := result
    by_cases hcommits : Commits pg reachable db.toTables accepted
    · rw [ingest_of_commits h hcommits]
      rw [← newEvents_unique]
      have hsub : ∀ e ∈ newEvents db.toTables (firstNew NormalizedEvent.eventId [] accepted),
          e ∈ firstNew NormalizedEvent.eventId [] accepted := fun e he => firstNew_sublist.mem he
      refine schema_store (fun e he => canonical_unique h e (hsub e he)) nodup_firstNew
        (fun e he => key_notMem_known he) fun e he => ?_
      rcases hcommits with rfl | ⟨-, hstorable⟩
      · exact absurd he List.not_mem_nil
      · exact hstorable.gameEvents e (hsub e he)
    · rw [ingest_of_not_commits h hcommits]
      exact db.schema

end Ingestion
