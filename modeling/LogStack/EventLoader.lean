/-
The loader (`scripts/send-events.ts`): a list of events is sent batch by batch, and the first
failure ends the run.

* `sendEvents` — one run against any server;
* `sendChunks_totals` — what a summary adds up to, whatever the server answers;
* `remote` — the receiver behind a network that loses requests and answers;
* `Added` — what a number of events has added to the tables, and what is counted of it;
* `Settled` — an event that the tables have dealt with once changes them no more;
* `loading` — any number of runs, complete or not, comes to one complete run.
-/
import LogStack.Batching
import LogStack.ColumnDomains
import LogStack.Pipeline
import LogStack.StandardLibraries

open FileProgram KeyedInsert GreedyCut Ingestion Sender

namespace Pipeline

/-! ### The script -/

/-- The sums of the answers. -/
structure SendSummary where
  batches : ℕ := 0
  received : ℕ := 0
  accepted : ℕ := 0
  stored : ℕ := 0
  duplicate : ℕ := 0
  orderDuplicate : ℕ := 0
  rejected : ℕ := 0
  rejectedItems : List RejectedEntry := []

def SendSummary.add (summary : SendSummary) (body : BatchResponse) : SendSummary where
  batches := summary.batches + 1
  received := summary.received + body.receivedCount
  accepted := summary.accepted + body.acceptedCount
  stored := summary.stored + body.storedCount
  duplicate := summary.duplicate + body.duplicateCount
  orderDuplicate := summary.orderDuplicate + body.orderDuplicateCount
  rejected := summary.rejected + body.rejectedCount
  rejectedItems := summary.rejectedItems ++ body.rejected

/-- What `sendEvents` throws. -/
inductive SendError where
  /-- `fetch` has thrown. -/
  | network
  | http (status : ℕ) (bodyText : Bytes)
  | response (reason : JsString)

section Script

variable (J : JsonText)

/-- `res.ok`, then the check of the body. -/
def checkReply (batchId : JsString) (chunk : List Json) : Option Reply →
    Except SendError BatchResponse
  | none => .error .network
  | some reply =>
    if reply.status < 200 ∨ 299 < reply.status then .error (.http reply.status reply.bodyText)
    else (parseBatchResponse J reply.bodyText batchId chunk).mapError .response

variable {J} {S : Type} (fetch : Bytes → S → Option Reply × S) (stamps : ℕ → Stamp J)

/-- The loop of `sendEvents`, from its batch number `k` on. -/
def sendChunks : ℕ → List (List Json) → SendSummary → S → Except SendError SendSummary × S
  | _, [], summary, s => (.ok summary, s)
  | k, chunk :: chunks, summary, s =>
    let sent := fetch (serializeBatch J (stamps k).batchId (stamps k).sentAt chunk) s
    match checkReply J (stamps k).batchId chunk sent.1 with
    | .error error => (.error error, sent.2)
    | .ok body => sendChunks (k + 1) chunks (summary.add body) sent.2

variable (J) in
def sendEvents (events : List Json) (s : S) : Except SendError SendSummary × S :=
  sendChunks fetch stamps 0 (chunkEvents J events) {} s

end Script

/-! ### What a summary adds up to -/

/-- The counts of a summary agree with each other and with the events. -/
structure Totals (batches events : ℕ) (summary : SendSummary) : Prop where
  batches : summary.batches = batches
  received : summary.received = events
  received_split : summary.received = summary.accepted + summary.rejected
  accepted_split : summary.accepted = summary.stored + summary.duplicate
  orderDuplicate_le : summary.orderDuplicate ≤ summary.stored
  rejectedItems : summary.rejectedItems.length = summary.rejected

section Script

variable {J : JsonText} {S : Type} {fetch : Bytes → S → Option Reply × S} {stamps : ℕ → Stamp J}
  {batchId : JsString} {chunk : List Json} {body : BatchResponse}

theorem parse_of_checkReply {reply : Option Reply}
    (h : checkReply J batchId chunk reply = .ok body) :
    ∃ r, reply = some r ∧ 200 ≤ r.status ∧ r.status ≤ 299 ∧
      parseBatchResponse J r.bodyText batchId chunk = .ok body := by
  cases reply with
  | none => cases h
  | some r =>
    rw [checkReply] at h
    split_ifs at h with hstatus
    rw [not_or, not_lt, not_lt] at hstatus
    cases hparse : parseBatchResponse J r.bodyText batchId chunk with
    | error reason => rw [hparse] at h; cases h
    | ok body' =>
      rw [hparse] at h
      obtain rfl : body' = body := Except.ok.inj h
      exact ⟨r, rfl, hstatus.1, hstatus.2, hparse⟩

/-- The counts that were checked. -/
structure Checked (events : ℕ) (body : BatchResponse) : Prop where
  received : body.receivedCount = events
  received_split : body.receivedCount = body.acceptedCount + body.rejectedCount
  accepted_split : body.acceptedCount = body.storedCount + body.duplicateCount
  orderDuplicate_le : body.orderDuplicateCount ≤ body.storedCount
  rejected : body.rejected.length = body.rejectedCount

theorem checked_of_parse {bodyText : Bytes}
    (h : parseBatchResponse J bodyText batchId chunk = .ok body) : Checked chunk.length body := by
  rw [parseBatchResponse] at h
  split at h
  · cases h
  · rename_i value hparse
    unfold validateBatchResponse at h
    split at h
    · split_ifs at h with hbatch
      split at h
      · cases h
      · rename_i fields hfields
        split_ifs at h with hreceived hcounts
        cases hrejected : validateRejected chunk [] fields.rejected with
        | error reason => rw [hrejected] at h; cases h
        | ok entries =>
          rw [hrejected] at h
          obtain rfl := Except.ok.inj h
          obtain ⟨hlength, -, -⟩ := validateRejected_ok hrejected
          simp only [not_or, not_not, not_lt] at hreceived hcounts
          obtain ⟨hsplit, haccepted, horder, hcount⟩ := hcounts
          exact ⟨hreceived, hsplit, haccepted, horder, hlength.trans hcount⟩
    · cases h

theorem Totals.add {batches events n : ℕ} {summary : SendSummary}
    (h : Totals batches events summary) (hbody : Checked n body) :
    Totals (batches + 1) (events + n) (summary.add body) where
  batches := congrArg (· + 1) h.batches
  received := congrArg₂ (· + ·) h.received hbody.received
  received_split := by
    have hleft := h.received_split
    have hright := hbody.received_split
    simp only [SendSummary.add]
    omega
  accepted_split := by
    have hleft := h.accepted_split
    have hright := hbody.accepted_split
    simp only [SendSummary.add]
    omega
  orderDuplicate_le := Nat.add_le_add h.orderDuplicate_le hbody.orderDuplicate_le
  rejectedItems := by
    simp only [SendSummary.add, List.length_append]
    rw [h.rejectedItems, hbody.rejected]

/-- By induction on the batches. -/
theorem sendChunks_totals {chunks : List (List Json)} {k batches events : ℕ}
    {summary summary' : SendSummary} {s s' : S} (h : Totals batches events summary)
    (hsent : sendChunks fetch stamps k chunks summary s = (.ok summary', s')) :
    Totals (batches + chunks.length) (events + chunks.flatten.length) summary' := by
  induction chunks generalizing k batches events summary s with
  | nil =>
    obtain ⟨hsummary, -⟩ := Prod.mk.inj hsent
    exact Except.ok.inj hsummary ▸ h
  | cons chunk chunks ih =>
    rw [sendChunks] at hsent
    cases hcheck : checkReply J (stamps k).batchId chunk
        (fetch (serializeBatch J (stamps k).batchId (stamps k).sentAt chunk) s).1 with
    | error error =>
      simp only [hcheck, Prod.mk.injEq, reduceCtorEq, false_and] at hsent
    | ok body =>
      simp only [hcheck] at hsent
      obtain ⟨r, -, -, -, hparse⟩ := parse_of_checkReply hcheck
      have hrest := ih (h.add (checked_of_parse hparse)) hsent
      have hbatches : batches + 1 + chunks.length = batches + (chunk :: chunks).length := by
        rw [List.length_cons]
        omega
      have hevents : events + chunk.length + chunks.flatten.length
          = events + (chunk :: chunks).flatten.length := by
        rw [List.flatten_cons, List.length_append, Nat.add_assoc]
      rwa [hbatches, hevents] at hrest

/-- **Whatever the server answers**, a summary counts every event once. -/
theorem sendEvents_totals {events : List Json} {summary : SendSummary} {s s' : S}
    (h : sendEvents J fetch stamps events s = (.ok summary, s')) :
    Totals (chunkEvents J events).length events.length summary := by
  have hzero : Totals 0 0 {} := ⟨rfl, rfl, rfl, rfl, le_rfl, rfl⟩
  have htotals := sendChunks_totals hzero h
  rwa [Nat.zero_add, Nat.zero_add, (cut_chunkEvents events).flatten] at htotals

end Script

/-! ### Events that are settled -/

section Settled

variable {L : Libraries} {pg : Postgres} {db : Tables} {raw raw' : Json} {raws raws' : List Json}

/-- The event changes the tables no more. -/
def Settled (L : Libraries) (pg : Postgres) (db : Tables) (raw : Json) : Prop :=
  ∀ e, acceptedEvent? L raw = some e → e.eventId ∈ db.eventIds ∨ gameEventRow pg e = none

theorem Settled.step_eq (h : Settled L pg db raw) : step L pg db raw = db := by
  rw [step]
  cases haccepted : acceptedEvent? L raw with
  | none => rfl
  | some e =>
    show storeEvent pg db e = db
    by_cases hmem : e.eventId ∈ db.eventIds
    · exact storeEvent_of_mem hmem
    · have hrow := (h e haccepted).resolve_left hmem
      rw [storeEvent, if_neg hmem, hrow]

/-- Ids stay in the tables. -/
theorem eventIds_subset_step (db : Tables) (raw : Json) :
    db.eventIds ⊆ (step L pg db raw).eventIds := by
  rw [step]
  cases acceptedEvent? L raw with
  | none => exact List.Subset.refl _
  | some e =>
    show db.eventIds ⊆ (storeEvent pg db e).eventIds
    rw [storeEvent]
    split_ifs
    · exact List.Subset.refl _
    · split
      · exact List.Subset.refl _
      · rw [Tables.eventIds, Tables.eventIds, List.map_append]
        exact List.subset_append_left _ _

theorem Settled.step (h : Settled L pg db raw) (raw' : Json) :
    Settled L pg (step L pg db raw') raw := fun e he =>
  (h e he).imp_left fun hmem => eventIds_subset_step db raw' hmem

theorem settled_step (db : Tables) (raw : Json) : Settled L pg (step L pg db raw) raw := by
  intro e he
  by_cases hmem : e.eventId ∈ db.eventIds
  · exact .inl (eventIds_subset_step db raw hmem)
  · cases hrow : gameEventRow pg e with
    | none => exact .inr rfl
    | some row =>
      left
      have hid : row.eventId = e.eventId :=
        (eventId_of_gameEventRow hrow).trans (canonical_of_acceptedEvent? he)
      rw [Ingestion.step, he]
      show e.eventId ∈ (storeEvent pg db e).eventIds
      rw [storeEvent, if_neg hmem, hrow, Tables.eventIds, List.map_append, ← hid]
      exact List.mem_append_right _ (List.mem_singleton_self _)

theorem Settled.foldl (h : Settled L pg db raw) (raws : List Json) :
    Settled L pg (raws.foldl (Ingestion.step L pg) db) raw := by
  induction raws generalizing db with
  | nil => exact h
  | cons raw' raws ih => exact ih (h.step raw')

/-- After a run over some events all of them are settled. -/
theorem settled_foldl (db : Tables) (raws : List Json) :
    ∀ raw ∈ raws, Settled L pg (raws.foldl (Ingestion.step L pg) db) raw := by
  induction raws generalizing db with
  | nil => exact fun _ h => absurd h List.not_mem_nil
  | cons raw raws ih =>
    intro raw' hraw'
    rcases List.mem_cons.mp hraw' with rfl | hraw'
    · exact (settled_step db raw').foldl raws
    · exact ih _ raw' hraw'

theorem foldl_of_settled (h : ∀ raw ∈ raws, Settled L pg db raw) :
    raws.foldl (Ingestion.step L pg) db = db := by
  induction raws with
  | nil => rfl
  | cons raw raws ih =>
    rw [List.foldl_cons, (h raw List.mem_cons_self).step_eq]
    exact ih fun raw' hraw' => h raw' (List.mem_cons_of_mem _ hraw')

/-- A beginning of the events, and then a longer one or a shorter one: the longer one counts. -/
theorem foldl_take (db : Tables) (raws : List Json) (m n : ℕ) :
    (raws.take n).foldl (Ingestion.step L pg) ((raws.take m).foldl (Ingestion.step L pg) db)
      = (raws.take (max m n)).foldl (Ingestion.step L pg) db := by
  rcases Nat.le_total n m with hle | hle
  · rw [Nat.max_eq_left hle]
    refine foldl_of_settled fun raw hraw => settled_foldl db _ raw ?_
    exact (List.take_subset_take_left raws hle) hraw
  · rw [Nat.max_eq_right hle]
    obtain ⟨rest, hrest⟩ : raws.take m <+: raws.take n := List.take_prefix_take_left hle
    rw [← hrest, List.foldl_append, List.foldl_append]
    congr 1
    exact foldl_of_settled (settled_foldl db _)

theorem foldl_all (db : Tables) (raws : List Json) (m : ℕ) :
    raws.foldl (Ingestion.step L pg) ((raws.take m).foldl (Ingestion.step L pg) db)
      = raws.foldl (Ingestion.step L pg) db := by
  have h : (raws.take raws.length).foldl (Ingestion.step L pg) _ = _ :=
    foldl_take db raws m raws.length
  rwa [List.take_length, List.take_of_length_le (le_max_right _ _)] at h

end Settled

/-! ### The receiver behind a network -/

section Remote

variable (J : JsonText) (L : Libraries) (pg : Postgres)

/-- What happens to a request. -/
inductive Weather where
  /-- It does not arrive. -/
  | lost
  | served (reachable : Bool) (refusal : Option Refusal) (answered : Bool)

/-- The receiver, with what happens to the next requests: nothing any more where the list ends. -/
def remote (body : Bytes) (s : Database × List Weather) :
    Option Reply × (Database × List Weather) :=
  match s.2.headD (.served true none true) with
  | .lost => (none, (s.1, s.2.tail))
  | .served reachable refusal answered =>
    let r := receive J L pg reachable refusal (.json body) s.1.toTables
    (if answered then some ⟨r.1.status, r.1.body, none⟩ else none,
      (⟨r.2, schema_receive J L pg s.1 reachable refusal (.json body)⟩, s.2.tail))

/-- The events as they reach the service. -/
def raws (es : List Event) : List Json := (es.map Event.value).map L.copyOf

/-- The events that the receiver rejects. -/
def rejections (es : List Event) : ℕ := es.countP fun e => (normalized? L e).isNone

variable {J L pg}

theorem status_receive {reachable : Bool} {refusal : Option Refusal}
    {content : Content} {db db' : Tables} {r : HttpResponse}
    (h : receive J L pg reachable refusal content db = (r, db')) :
    r.status ∈ [200, 400, 401, 403, 413, 429, 500, 503] := by
  obtain rfl : (receive J L pg reachable refusal content db).1 = r := congrArg Prod.fst h
  rw [receive]
  split_ifs
  · simp [respond]
  cases parseBody J content with
  | none => simp [respond]
  | some request =>
    cases refusal with
    | some refusal => cases refusal <;> simp [Refusal.response, respond]
    | none =>
      simp only [handle]
      cases L.plainToInstance request with
      | none => simp [unexpected, respond]
      | some dto =>
        dsimp only
        split_ifs
        · simp [respond]
        · split
          · cases (ingest L pg reachable _ _ db).1 <;> simp [answerResponse, unexpected, respond]
          · simp [unexpected, respond]

/-- The body that the script reads has the counts that the service has written. -/
theorem counts_of_parse {response : EventBatchResponse} {batchId : JsString} {chunk : List Json}
    {body : BatchResponse} (hduplicate : 0 ≤ response.duplicateCount)
    (horder : 0 ≤ response.orderDuplicateCount)
    (h : parseBatchResponse J (J.stringify response.toJson) batchId chunk = .ok body) :
    body.storedCount = response.storedCount ∧ body.rejectedCount = response.rejectedCount ∧
      body.orderDuplicateCount = response.orderDuplicateCount := by
  have hobj : ∃ fields, response.toJson = .obj fields := ⟨_, rfl⟩
  obtain ⟨fields, hfields⟩ := hobj
  rw [parseBatchResponse, J.parse_stringify _ response.plain] at h
  simp only [hfields, validateBatchResponse] at h
  rw [← hfields, bodyFields?_toJson hduplicate horder] at h
  split_ifs at h with hbatch
  simp only at h
  split_ifs at h
  cases hrejected : validateRejected chunk [] (response.rejected.map RejectedEvent.toJson) with
  | error reason => rw [hrejected] at h; cases h
  | ok entries =>
    rw [hrejected] at h
    rw [← Except.ok.inj h]
    exact ⟨rfl, rfl, Int.toNat_of_nonneg horder⟩

theorem length_rejected {es : List Event} {accepted : List NormalizedEvent}
    {rejected : List RejectedEvent}
    (h : validateEvents L 0 (raws L es) = some (accepted, rejected)) :
    rejected.length = rejections L es := by
  have hlength := length_accepted_add_rejected h
  have hsplit : ((raws L es).filterMap (acceptedEvent? L)).length + rejections L es
      = (raws L es).length := by
    clear h hlength
    induction es with
    | nil => rfl
    | cons e es ih =>
      have hraws : raws L (e :: es) = L.copyOf e.value :: raws L es := rfl
      rw [hraws, rejections, List.countP_cons, List.length_cons, ← rejections, normalized?]
      cases hn : acceptedEvent? L (L.copyOf e.value) with
      | none =>
        rw [List.filterMap_cons_none hn]
        simp only [Option.isNone_none, if_true]
        omega
      | some n =>
        rw [List.filterMap_cons_some hn, List.length_cons]
        simp only [Option.isNone_some, Bool.false_eq_true, if_false]
        omega
  rw [accepted_eq h] at hlength
  omega

theorem raws_append (es es' : List Event) : raws L (es ++ es') = raws L es ++ raws L es' := by
  rw [raws, List.map_append, List.map_append, raws, raws]

theorem rejections_append (es es' : List Event) :
    rejections L (es ++ es') = rejections L es + rejections L es' := List.countP_append

/-- The rows of purchases in `game_events`. -/
def purchaseRows (db : Tables) : ℕ :=
  db.gameEvents.countP fun row => row.eventType = EventType.shopPurchase.name

/-- What has come of events between two states of the tables: each accepted one has its id in
`game_events`, and of the new rows those are counted as order duplicates that are purchases without
a row in `purchases`. -/
structure Added (L : Libraries) (es : List Event) (before after : Tables)
    (stored orderDuplicate rejected : ℕ) : Prop where
  grows : before.eventIds ⊆ after.eventIds
  accepted : ∀ raw ∈ raws L es, ∀ e, acceptedEvent? L raw = some e → e.eventId ∈ after.eventIds
  stored : after.gameEvents.length = before.gameEvents.length + stored
  orderDuplicate : purchaseRows after + before.purchases.length =
    purchaseRows before + after.purchases.length + orderDuplicate
  rejected : rejected = rejections L es

theorem Added.nil (db : Tables) : Added L [] db db 0 0 0 where
  grows := List.Subset.refl _
  accepted := fun _ h => absurd h List.not_mem_nil
  stored := rfl
  orderDuplicate := rfl
  rejected := rfl

theorem Added.append {es es' : List Event} {before db after : Tables}
    {stored stored' orderDuplicate orderDuplicate' rejected rejected' : ℕ}
    (h : Added L es before db stored orderDuplicate rejected)
    (h' : Added L es' db after stored' orderDuplicate' rejected') :
    Added L (es ++ es') before after (stored + stored') (orderDuplicate + orderDuplicate')
      (rejected + rejected') where
  grows := List.Subset.trans h.grows h'.grows
  accepted := by
    intro raw hraw e he
    rw [raws_append] at hraw
    rcases List.mem_append.mp hraw with hraw | hraw
    · exact h'.grows (h.accepted raw hraw e he)
    · exact h'.accepted raw hraw e he
  stored := by rw [h'.stored, h.stored, Nat.add_assoc]
  orderDuplicate := by
    have hleft := h.orderDuplicate
    have hright := h'.orderDuplicate
    omega
  rejected := by rw [rejections_append, h.rejected, h'.rejected]

/-- The counts of an answer are those of what its batch has added. -/
theorem added_of_serve {db : Database} {b : Batch} {response : EventBatchResponse} {es : List Event}
    (hevents : b.events = raws L es) (hanswer : (serve L pg db b).answer = .ok response)
    {orderDuplicate : ℕ} (horder : (orderDuplicate : ℤ) = response.orderDuplicateCount) :
    Added L es db.toTables (serve L pg db b).after.toTables response.storedCount orderDuplicate
      response.rejectedCount := by
  have hcounts := counts hanswer
  obtain ⟨accepted, rejected, hvalid, -, hresponse, htables⟩ | ⟨hnone, -⟩ := serve_cases L pg db b
  swap
  · exact absurd hanswer (hnone response)
  rw [hanswer, Answer.ok.injEq] at hresponse
  -- the rows that the batch has added
  set rows := (newEvents db.toTables accepted).filterMap (gameEventRow pg) with hrows
  have hgameEvents : (serve L pg db b).after.gameEvents = db.gameEvents ++ rows := by
    rw [htables, Tables.store]
  constructor
  case grows =>
    rw [Tables.eventIds, Tables.eventIds, hgameEvents, List.map_append]
    exact List.subset_append_left _ _
  case accepted =>
    intro raw hraw e he
    have hingest : ingest L pg b.reachable b.batchId b.events db.toTables =
        (.ok response, (serve L pg db b).after.toTables) := Prod.ext hanswer rfl
    exact mem_eventIds_of_ok hingest (hevents ▸ hraw) (acceptedEvent?_eq_some.mp he)
  case stored => exact hcounts.stored
  case orderDuplicate =>
    have hcount := hcounts.orderDuplicate
    have hnew : (serve L pg db b).newRows = rows := by
      rw [Exchange.newRows, hgameEvents]
      exact List.drop_left
    have hbefore : (serve L pg db b).before = db := rfl
    rw [hnew, ← List.countP_eq_length_filter, hbefore] at hcount
    rw [purchaseRows, hgameEvents, List.countP_append, ← purchaseRows]
    omega
  case rejected =>
    rw [hresponse]
    exact length_rejected (hevents ▸ hvalid)

/-- A 200 has stored the batch, and the script reads what was counted. -/
theorem taken_of_ok (label : Label J L) {es : List Event}
    (hcount : 1 ≤ es.length ∧ es.length ≤ 500) {reachable : Bool} {refusal : Option Refusal}
    {db : Database} {r : HttpResponse} {db' : Tables}
    (h : receive J L pg reachable refusal
      (.json (serializeBatch J label.batchId label.sentAt (es.map Event.value)))
        db.toTables = (r, db'))
    (hstatus : r.status = 200) :
    db' = (raws L es).foldl (step L pg) db.toTables ∧ ∀ chunk body,
      parseBatchResponse J r.body label.batchId chunk = .ok body →
        Added L es db.toTables db' body.storedCount body.orderDuplicateCount
          body.rejectedCount := by
  obtain ⟨dto, batchId, events, response, hcopy, -, hbatchId, hevents, hingest, hbody⟩ :=
    served_of_sent h hstatus
  -- the events that the service got are those that were sent
  obtain ⟨-, -, hsame⟩ := holds_of_label label hcount hcopy
  obtain rfl : events = raws L es := Json.arr.inj (Option.some.inj (hevents.symm.trans hsame))
  set b : Batch := ⟨batchId, raws L es, reachable⟩ with hb
  have hanswer : (serve L pg db b).answer = .ok response := congrArg Prod.fst hingest
  have hafter : (serve L pg db b).after.toTables = db' := congrArg Prod.snd hingest
  constructor
  · have hfold : (serve L pg db b).delivered.foldl (step L pg) db.toTables
        = (serve L pg db b).after.toTables := foldl_step db b
    rw [hafter, Exchange.delivered, hanswer] at hfold
    exact hfold.symm
  · intro chunk body hchecked
    rw [hbody] at hchecked
    have hcounts := counts hanswer
    obtain ⟨hstored, hrejected, horder⟩ := counts_of_parse hcounts.duplicate_nonneg
      hcounts.orderDuplicate_nonneg hchecked
    rw [hstored, hrejected, ← hafter]
    exact added_of_serve rfl hanswer horder

variable (pg) in
/-- A request of the script: nothing happens and the script learns of nothing, or the batch is
stored and the answer, if it comes, counts. -/
theorem remote_chunk (label : Label J L) {es : List Event}
    (hcount : 1 ≤ es.length ∧ es.length ≤ 500) (s : Database × List Weather) :
    let sent := remote J L pg (serializeBatch J label.batchId label.sentAt (es.map Event.value)) s
    (sent.2.1 = s.1 ∧
      ∀ body, checkReply J label.batchId (es.map Event.value) sent.1 ≠ .ok body) ∨
    sent.2.1.toTables = (raws L es).foldl (step L pg) s.1.toTables ∧
      ∀ body, checkReply J label.batchId (es.map Event.value) sent.1 = .ok body →
        Added L es s.1.toTables sent.2.1.toTables body.storedCount body.orderDuplicateCount
          body.rejectedCount := by
  intro sent
  cases hweather : s.2.headD (.served true none true) with
  | lost =>
    left
    have hsent : sent = (none, (s.1, s.2.tail)) := by
      simp only [sent, remote, hweather]
    rw [hsent]
    exact ⟨rfl, fun body h => by cases h⟩
  | served reachable refusal answered =>
    obtain ⟨r, db', hreceive⟩ : ∃ r db', receive J L pg reachable refusal
        (.json (serializeBatch J label.batchId label.sentAt (es.map Event.value))) s.1.toTables
          = (r, db') := ⟨_, _, rfl⟩
    have hdb : sent.2.1.toTables = db' := by
      simp only [sent, remote, hweather, hreceive]
    have hreply : sent.1 = if answered then some ⟨r.status, r.body, none⟩ else none := by
      simp only [sent, remote, hweather, hreceive]
    by_cases hstatus : r.status = 200
    · right
      obtain ⟨htables, hcounted⟩ := taken_of_ok label hcount hreceive hstatus
      refine ⟨hdb.trans htables, fun body h => ?_⟩
      obtain ⟨reply, hsome, -, -, hchecked⟩ := parse_of_checkReply h
      rw [hreply] at hsome
      split_ifs at hsome
      rw [← Option.some.inj hsome] at hchecked
      rw [hdb]
      exact hcounted _ body hchecked
    · left
      have hsame : db' = s.1.toTables := by
        rcases receive_batch label hcount hreceive with ⟨-, -, h⟩ | ⟨-, h⟩ | hcommitted
        · exact h
        · exact h
        · exact absurd hcommitted.status hstatus
      refine ⟨Database.eq_of_toTables (hdb.trans hsame), fun body h => ?_⟩
      -- the receiver has no other answer between 200 and 299
      obtain ⟨reply, hsome, hlow, hhigh, -⟩ := parse_of_checkReply h
      rw [hreply] at hsome
      split_ifs at hsome
      rw [← Option.some.inj hsome] at hlow hhigh
      have hstatuses := status_receive hreceive
      simp only [List.mem_cons, List.not_mem_nil, or_false] at hstatuses hlow hhigh
      omega

/-! ### Runs -/

/-- The batches of the script are batches of its events. -/
theorem exists_pieces (events : List Event) : ∃ pieces : List (List Event),
    chunkEvents J (events.map Event.value) = pieces.map (fun es => es.map Event.value) ∧
      pieces.flatten = events ∧ ∀ es ∈ pieces, 1 ≤ es.length ∧ es.length ≤ 500 := by
  have hcut := cut_chunkEvents (J := J) (events.map Event.value)
  generalize chunkEvents J (events.map Event.value) = chunks at hcut ⊢
  generalize hvalues : events.map Event.value = values at hcut
  induction hcut generalizing events with
  | nil => exact ⟨[], rfl, (List.map_eq_nil_iff.mp hvalues).symm, fun _ h => absurd h (by simp)⟩
  | @cons head rest chunks hhead hcut ih =>
    obtain ⟨es, es', rfl, rfl, hrest⟩ := List.map_eq_append_iff.mp hvalues
    obtain ⟨pieces, hpieces, hflatten, hcounts⟩ := ih es' hrest
    refine ⟨es :: pieces, by rw [List.map_cons, hpieces], by rw [List.flatten_cons, hflatten], ?_⟩
    intro piece hpiece
    rcases List.mem_cons.mp hpiece with rfl | hpiece
    · have hne := List.length_pos_of_ne_nil hhead.ne_nil
      rw [List.length_map] at hne
      refine ⟨hne, ?_⟩
      rcases hhead.admits with hwithin | hone
      · have hcount := hwithin.count
        rwa [List.length_map] at hcount
      · rw [List.length_map] at hone
        omega
    · exact hcounts piece hpiece

variable (pg) in
/-- By induction on the batches: a run stores a beginning of the events, and all of them where it
returns a summary. -/
theorem sendChunks_remote (labels : ℕ → Label J L) {pieces : List (List Event)}
    (hcounts : ∀ es ∈ pieces, 1 ≤ es.length ∧ es.length ≤ 500) (k : ℕ) (summary : SendSummary)
    (s : Database × List Weather) :
    let sent := sendChunks (remote J L pg) (fun k => (labels k).toStamp) k
      (pieces.map fun es => es.map Event.value) summary s
    ∃ n, sent.2.1.toTables = (raws L (pieces.take n).flatten).foldl (step L pg) s.1.toTables ∧
      ∀ summary', sent.1 = .ok summary' → (pieces.take n).flatten = pieces.flatten ∧
        ∃ stored orderDuplicate rejected, summary'.stored = summary.stored + stored ∧
          summary'.orderDuplicate = summary.orderDuplicate + orderDuplicate ∧
          summary'.rejected = summary.rejected + rejected ∧
          Added L pieces.flatten s.1.toTables sent.2.1.toTables stored orderDuplicate rejected := by
  induction pieces generalizing k summary s with
  | nil =>
    intro sent
    refine ⟨0, rfl, fun summary' h => ⟨rfl, 0, 0, 0, ?_⟩⟩
    obtain rfl := Except.ok.inj h
    exact ⟨rfl, rfl, rfl, .nil _⟩
  | cons es pieces ih =>
    intro sent
    have hes := hcounts es List.mem_cons_self
    have hchunk := remote_chunk pg (labels k) hes s
    have hrest := ih fun es' hes' => hcounts es' (List.mem_cons_of_mem _ hes')
    set first := remote J L pg
      (serializeBatch J (labels k).batchId (labels k).sentAt (es.map Event.value)) s with hfirst
    cases hcheck : checkReply J (labels k).batchId (es.map Event.value) first.1 with
    | error error =>
      have hsent : sent = (.error error, first.2) := by
        simp only [sent, List.map_cons, sendChunks, ← hfirst, hcheck]
      rw [hsent]
      -- the batch may be stored even so
      rcases hchunk with ⟨hsame, -⟩ | ⟨htables, -⟩
      · exact ⟨0, congrArg Database.toTables hsame, fun _ h => by cases h⟩
      · exact ⟨1, by simpa using htables, fun _ h => by cases h⟩
    | ok body =>
      have hsent : sent = sendChunks (remote J L pg) (fun k => (labels k).toStamp) (k + 1)
          (pieces.map fun es => es.map Event.value) (summary.add body) first.2 := by
        simp only [sent, List.map_cons, sendChunks, ← hfirst, hcheck]
      rcases hchunk with ⟨-, hnone⟩ | ⟨htables, hcounted⟩
      · exact absurd hcheck (hnone body)
      · have hadded := hcounted body hcheck
        obtain ⟨n, hn, hsummary⟩ := hrest (k + 1) (summary.add body) first.2
        rw [← hsent] at hn hsummary
        refine ⟨n + 1, ?_, fun summary' h => ?_⟩
        · rw [hn, htables, List.take_succ_cons, List.flatten_cons, raws_append, List.foldl_append]
        · obtain ⟨hall, stored, orderDuplicate, rejected, hstored, horder, hrejected, hadded'⟩ :=
            hsummary summary' h
          refine ⟨?_, body.storedCount + stored, body.orderDuplicateCount + orderDuplicate,
            body.rejectedCount + rejected, ?_, ?_, ?_, ?_⟩
          · rw [List.take_succ_cons, List.flatten_cons, hall, List.flatten_cons]
          · exact hstored.trans (Nat.add_assoc _ _ _)
          · exact horder.trans (Nat.add_assoc _ _ _)
          · exact hrejected.trans (Nat.add_assoc _ _ _)
          · rw [List.flatten_cons]
            exact hadded.append hadded'

end Remote

/-- One run of the script on its events. -/
structure Attempt (J : JsonText) (L : Libraries) where
  labels : ℕ → Label J L
  weather : List Weather

theorem isInstanceUuid_template : isInstanceUuid BATCH_ID_SIZE_TEMPLATE = true := by
  decide +kernel

theorem toISOString_template : Calendar.toISOString 946684800000 = SENT_AT_SIZE_TEMPLATE := by
  decide +kernel

/-- The label whose texts are the templates. -/
def templateLabel (J : JsonText) (L : StandardLibraries) : Label J L.toLibraries where
  toStamp := .template J
  isUUID := L.isUUID_of _ isInstanceUuid_template
  isISO8601 := by
    show L.isISO8601 false SENT_AT_SIZE_TEMPLATE = true
    rw [← toISOString_template]
    exact L.isISO8601_toISOString false _ (by decide)

/-- What a run has come to. -/
structure Outcome where
  before : Database
  result : Except SendError SendSummary
  after : Database

section Loading

variable {J : JsonText} {L : Libraries} (pg : Postgres) (events : List Event)

def Attempt.outcome (attempt : Attempt J L) (db : Database) : Outcome :=
  let sent := sendEvents J (remote J L pg) (fun k => (attempt.labels k).toStamp)
    (events.map Event.value) (db, attempt.weather)
  ⟨db, sent.1, sent.2.1⟩

/-- Runs one after another, on the same events. -/
def outcomes : Database → List (Attempt J L) → List Outcome
  | _, [] => []
  | db, attempt :: rest =>
    attempt.outcome pg events db :: outcomes (attempt.outcome pg events db).after rest

/-- The tables in the end. -/
def loadAll (db : Database) (attempts : List (Attempt J L)) : Database :=
  attempts.foldl (fun db attempt => (attempt.outcome pg events db).after) db

/-- A run that returns a summary has stored every event that is accepted, and counted them. -/
structure Loaded (J : JsonText) (L : Libraries) (pg : Postgres) (events : List Event)
    (x : Outcome) (summary : SendSummary) : Prop where
  totals : Totals (chunkEvents J (events.map Event.value)).length events.length summary
  tables : x.after.toTables = (raws L events).foldl (step L pg) x.before.toTables
  added : Added L events x.before.toTables x.after.toTables summary.stored summary.orderDuplicate
    summary.rejected

theorem Attempt.outcome_spec (attempt : Attempt J L) (db : Database) :
    (∃ n, (attempt.outcome pg events db).after.toTables
      = ((raws L events).take n).foldl (step L pg) db.toTables) ∧
    ∀ summary, (attempt.outcome pg events db).result = .ok summary →
      Loaded J L pg events (attempt.outcome pg events db) summary := by
  obtain ⟨pieces, hpieces, hflatten, hcounts⟩ := exists_pieces (J := J) events
  have hsent : ∀ s, sendEvents J (remote J L pg) (fun k => (attempt.labels k).toStamp)
      (events.map Event.value) s = sendChunks (remote J L pg)
        (fun k => (attempt.labels k).toStamp) 0 (pieces.map fun es => es.map Event.value) {} s :=
    fun s => by rw [sendEvents, hpieces]
  obtain ⟨n, htables, hsummary⟩ := sendChunks_remote pg attempt.labels hcounts 0 {}
    (db, attempt.weather)
  rw [← hsent] at htables hsummary
  constructor
  · -- whole batches are a beginning of the events
    have hraws : raws L events
        = raws L (pieces.take n).flatten ++ raws L (pieces.drop n).flatten := by
      rw [← raws_append, ← List.flatten_append, List.take_append_drop, hflatten]
    refine ⟨(raws L (pieces.take n).flatten).length, ?_⟩
    rw [hraws, List.take_left]
    exact htables
  · intro summary h
    obtain ⟨hall, stored, orderDuplicate, rejected, hstored, horder, hrejected, hadded⟩ :=
      hsummary summary h
    have htotals : Totals _ (events.map Event.value).length summary :=
      sendEvents_totals (Prod.ext h rfl)
    rw [List.length_map] at htotals
    rw [hall, hflatten] at htables
    rw [hflatten] at hadded
    rw [← Nat.zero_add stored, ← Nat.zero_add orderDuplicate, ← Nat.zero_add rejected] at hadded
    exact ⟨htotals, htables, hstored ▸ horder ▸ hrejected ▸ hadded⟩

variable {pg events}

/-- Where every event is settled, no run changes anything. -/
theorem outcomes_of_settled {db : Database} (attempts : List (Attempt J L))
    (h : ∀ raw ∈ raws L events, Settled L pg db.toTables raw) :
    ∀ x ∈ outcomes pg events db attempts, x.before = db ∧ x.after = db := by
  induction attempts with
  | nil => exact fun _ hx => absurd hx List.not_mem_nil
  | cons attempt attempts ih =>
    have hafter : (attempt.outcome pg events db).after = db := by
      obtain ⟨⟨n, hn⟩, -⟩ := attempt.outcome_spec pg events db
      rw [foldl_of_settled fun raw hraw => h raw (List.mem_of_mem_take hraw)] at hn
      exact Database.eq_of_toTables hn
    intro x hx
    rcases List.mem_cons.mp hx with rfl | hx
    · exact ⟨rfl, hafter⟩
    · rw [hafter] at hx
      exact ih x hx

/-! ### A run without failures -/

/-- An event has room in a request, it is accepted, and its values fit their columns. -/
structure Welcome (J : JsonText) (L : Libraries) (pg : Postgres) (e : Event) : Prop where
  room : batchBodyByteLength J [e.value] ≤ MAX_BODY_BYTES
  stored : ∃ n, normalized? L e = some n ∧ InDomain pg n

/-- A batch whose validation does not throw, and whose accepted events fit their columns. -/
theorem status_of_inDomain (label : Label J L) {es : List Event}
    (hcount : 1 ≤ es.length ∧ es.length ≤ 500)
    (hcopy : (L.plainToInstance
      (batchJson label.batchId label.sentAt (es.map Event.value))).isSome = true)
    (hsize : batchBodyByteLength J (es.map Event.value) ≤ MAX_BODY_BYTES)
    {accepted : List NormalizedEvent} {rejected : List RejectedEvent}
    (hvalid : validateEvents L 0 (raws L es) = some (accepted, rejected))
    (hdomain : ∀ n ∈ accepted, InDomain pg n) (db : Database) :
    (receive J L pg true none
      (.json (serializeBatch J label.batchId label.sentAt (es.map Event.value)))
        db.toTables).1.status = 200 := by
  obtain ⟨dto, hdto⟩ := Option.isSome_iff_exists.mp hcopy
  obtain ⟨hholds, hbatchId, hevents⟩ := holds_of_label label hcount hdto
  have hsync : (L.validateSync eventBatchRequestDto dto).isEmpty = true :=
    isEmpty_validateSync.mpr hholds
  have hcommits : Commits pg true db.toTables accepted := by
    refine .inr ⟨rfl, fun n hn => ?_, fun n hn => ?_⟩
    · exact (hdomain n (firstNew_sublist.mem hn)).1
    · exact (hdomain n (firstNew_sublist.mem (firstNew_sublist.mem hn))).2
  rw [receive, if_neg (mt (tooLarge_serializeBatch label).mp (Nat.not_lt.mpr hsize)),
    parseBody_serializeBatch]
  have hingest : ingest L pg true label.batchId (raws L es) db.toTables = _ :=
    ingest_of_commits hvalid hcommits
  simp only [handle, hdto, hsync, hbatchId, hevents, Json.string?, Json.array?, Bool.not_true,
    Bool.false_eq_true, if_false]
  rw [← raws, hingest]
  rfl

theorem status_of_welcome (label : Label J L) {es : List Event}
    (hcount : 1 ≤ es.length ∧ es.length ≤ 500)
    (hcopy : (L.plainToInstance
      (batchJson label.batchId label.sentAt (es.map Event.value))).isSome = true)
    (hsize : batchBodyByteLength J (es.map Event.value) ≤ MAX_BODY_BYTES)
    (hwelcome : ∀ e ∈ es, Welcome J L pg e) (db : Database) :
    (receive J L pg true none
      (.json (serializeBatch J label.batchId label.sentAt (es.map Event.value)))
        db.toTables).1.status = 200 := by
  have hnormal : ∀ raw ∈ raws L es, ∃ n, acceptedEvent? L raw = some n ∧ InDomain pg n := by
    intro raw hraw
    simp only [raws, List.mem_map] at hraw
    obtain ⟨_, ⟨e, he, rfl⟩, rfl⟩ := hraw
    exact (hwelcome e he).stored
  obtain ⟨accepted, hvalid⟩ : ∃ accepted, validateEvents L 0 (raws L es) = some (accepted, []) :=
    validateEvents_of_accepted 0 fun raw hraw => by
      obtain ⟨n, hn, -⟩ := hnormal raw hraw
      exact ⟨n, acceptedEvent?_eq_some.mp hn⟩
  refine status_of_inDomain label hcount hcopy hsize hvalid (fun n hn => ?_) db
  rw [accepted_eq hvalid] at hn
  obtain ⟨raw, hraw, hevent⟩ := List.mem_filterMap.mp hn
  obtain ⟨n', hn', hfits⟩ := hnormal raw hraw
  obtain rfl := Option.some.inj (hevent.symm.trans hn')
  exact hfits

/-- The script counts the answer. -/
theorem exists_body (label : Label J L) {es : List Event}
    (hcount : 1 ≤ es.length ∧ es.length ≤ 500)
    (hcopy : (L.plainToInstance
      (batchJson label.batchId label.sentAt (es.map Event.value))).isSome = true)
    (hsize : batchBodyByteLength J (es.map Event.value) ≤ MAX_BODY_BYTES)
    (hwelcome : ∀ e ∈ es, Welcome J L pg e) (db : Database) : ∃ body db',
    remote J L pg (serializeBatch J label.batchId label.sentAt (es.map Event.value)) (db, [])
      = (some body, (db', [])) ∧
      ∃ response, checkReply J label.batchId (es.map Event.value) (some body) = .ok response := by
  have hr := status_of_welcome label hcount hcopy hsize hwelcome db
  set served := receive J L pg true none
    (.json (serializeBatch J label.batchId label.sentAt (es.map Event.value)))
      db.toTables with hserved
  obtain ⟨response, hconfirm⟩ := decideAck_of_served (r := served.1) none hserved.symm hr
  refine ⟨⟨served.1.status, served.1.body, none⟩,
    ⟨served.2, schema_receive J L pg db true none _⟩, rfl, response, ?_⟩
  unfold decideAck at hconfirm
  rw [if_pos hr] at hconfirm
  have hparse : parseBatchResponse J served.1.body label.batchId (es.map Event.value)
      = .ok response := by
    split at hconfirm
    · rename_i response' hok
      obtain rfl := AckAction.confirm.inj hconfirm
      exact hok
    · cases hconfirm
  have hrange : ¬(served.1.status < 200 ∨ 299 < served.1.status) := by omega
  simp only [checkReply, if_neg hrange, hparse]
  rfl

/-- The body of a request with ordinary events. -/
theorem ordinary_batchJson (batchId sentAt : JsString) {events : List Json}
    (h : ∀ event ∈ events, ordinary 2 event = true) :
    ordinary BATCH_DEPTH (batchJson batchId sentAt events) = true := by
  have hkeys : ∀ key ∈ [js "batch_id", js "sent_at", js "events"],
      decide (key ∉ inheritedNames) = true := by decide +kernel
  simp only [List.forall_mem_cons] at hkeys
  simp only [batchJson, BATCH_DEPTH, ordinary, List.all_cons, List.all_nil, hkeys,
    Bool.and_true, Bool.true_and, List.all_eq_true]
  exact h

/-- **A run without failures** returns a summary, whatever the tables hold. By induction on the
batches. -/
theorem exists_summary (attempt : Attempt J L) (hclear : attempt.weather = [])
    (hcopy : ∀ batchId sentAt, ∀ es ⊆ events,
      (L.plainToInstance (batchJson batchId sentAt (es.map Event.value))).isSome = true)
    (hwelcome : ∀ e ∈ events, Welcome J L pg e) (db : Database) :
    ∃ summary, (attempt.outcome pg events db).result = .ok summary := by
  obtain ⟨pieces, hpieces, hflatten, hcounts⟩ := exists_pieces (J := J) events
  have hrooms : ∀ es ∈ pieces, batchBodyByteLength J (es.map Event.value) ≤ MAX_BODY_BYTES := by
    intro es hes
    rcases (cut_chunkEvents (J := J) (events.map Event.value)).admits _
      (hpieces ▸ List.mem_map_of_mem hes) with hwithin | hone
    · exact hwithin.bytes.trans (by decide)
    · rw [List.length_map] at hone
      obtain ⟨e, rfl⟩ := List.length_eq_one_iff.mp hone
      exact (hwelcome e (hflatten ▸ List.mem_flatten_of_mem hes (List.mem_singleton_self e))).room
  have hsubs : ∀ es ∈ pieces, es ⊆ events := fun es hes e he =>
    hflatten ▸ List.mem_flatten_of_mem hes he
  suffices h : ∀ (k : ℕ) (summary : SendSummary) (db : Database), ∃ summary',
      (sendChunks (remote J L pg) (fun k => (attempt.labels k).toStamp) k
        (pieces.map fun es => es.map Event.value) summary (db, [])).1 = .ok summary' by
    obtain ⟨summary, hsummary⟩ := h 0 {} db
    refine ⟨summary, ?_⟩
    rw [Attempt.outcome, sendEvents, hpieces, hclear]
    exact hsummary
  clear hpieces hflatten
  induction pieces with
  | nil => exact fun k summary db => ⟨summary, rfl⟩
  | cons es pieces ih =>
    intro k summary db
    have hes : ∀ e ∈ es, Welcome J L pg e := fun e he =>
      hwelcome e (hsubs es List.mem_cons_self he)
    obtain ⟨body, db', hremote, response, hresponse⟩ := exists_body (attempt.labels k)
      (hcounts es List.mem_cons_self) (hcopy _ _ es (hsubs es List.mem_cons_self))
      (hrooms es List.mem_cons_self) hes db
    obtain ⟨summary', hsummary⟩ := ih (fun es' hes' => hcounts es' (List.mem_cons_of_mem _ hes'))
      (fun es' hes' => hrooms es' (List.mem_cons_of_mem _ hes'))
      (fun es' hes' => hsubs es' (List.mem_cons_of_mem _ hes')) (k + 1) (summary.add response) db'
    refine ⟨summary', ?_⟩
    simp only [List.map_cons, sendChunks, hremote, hresponse]
    exact hsummary

/-- What any number of runs has come to. -/
structure Loading (J : JsonText) (L : Libraries) (pg : Postgres) (events : List Event)
    (db : Tables) (runs : List Outcome) (db' : Database) : Prop where
  /-- A beginning of the events is in the tables. -/
  tables : ∃ n, db'.toTables = ((raws L events).take n).foldl (step L pg) db
  /-- After a run that returns a summary all of them are, as after one run without failures. -/
  loaded : ∀ x ∈ runs, ∀ summary, x.result = .ok summary → Loaded J L pg events x summary ∧
    x.after.toTables = (raws L events).foldl (step L pg) db
  /-- Later runs change nothing, and count duplicates. -/
  again : runs.Pairwise fun x y => (∃ summary, x.result = .ok summary) → y.after = y.before ∧
    ∀ summary, y.result = .ok summary → summary.stored = 0 ∧ summary.duplicate = summary.accepted

/-- By induction on the runs, from tables that hold a beginning of the events. -/
theorem loading_of_take {db : Tables} {db' : Database}
    (h : ∃ m, db'.toTables = ((raws L events).take m).foldl (step L pg) db)
    (attempts : List (Attempt J L)) :
    Loading J L pg events db (outcomes pg events db' attempts)
      (loadAll pg events db' attempts) := by
  induction attempts generalizing db' with
  | nil => exact ⟨h, fun _ hx => absurd hx List.not_mem_nil, .nil⟩
  | cons attempt attempts ih =>
    obtain ⟨m, hm⟩ := h
    obtain ⟨⟨n, hn⟩, hsummary⟩ := attempt.outcome_spec pg events db'
    rw [hm, foldl_take] at hn
    obtain ⟨htables, hloaded, hagain⟩ := ih ⟨_, hn⟩
    have hfull : ∀ summary, (attempt.outcome pg events db').result = .ok summary →
        (attempt.outcome pg events db').after.toTables
          = (raws L events).foldl (step L pg) db := by
      intro summary h
      have hafter := (hsummary summary h).tables
      have hbefore : (attempt.outcome pg events db').before = db' := rfl
      rw [hafter, hbefore, hm, foldl_all]
    refine ⟨htables, fun x hx summary h => ?_, List.pairwise_cons.mpr ⟨fun y hy h => ?_, hagain⟩⟩
    · rcases List.mem_cons.mp hx with rfl | hx
      · exact ⟨hsummary summary h, hfull summary h⟩
      · exact hloaded x hx summary h
    · obtain ⟨summary, h⟩ := h
      have hsettled : ∀ raw ∈ raws L events,
          Settled L pg (attempt.outcome pg events db').after.toTables raw := by
        rw [hfull summary h]
        exact settled_foldl db _
      obtain ⟨hbefore, hafter⟩ := outcomes_of_settled attempts hsettled y hy
      refine ⟨hafter.trans hbefore.symm, fun summary' h' => ?_⟩
      obtain ⟨hy', -⟩ := hloaded y hy summary' h'
      have hstored := hy'.added.stored
      have hsplit := hy'.totals.accepted_split
      rw [hafter, hbefore] at hstored
      omega

end Loading

/-- **Loading can be repeated.** However many runs of the script there are on the same events,
and however requests and answers get lost, are refused or fail: the tables hold a beginning of the
events, in their order. A run that returns a summary has stored all that are accepted, just as one
run without failures, and its counts are those of the events and of the tables; whatever runs come
after it store nothing. -/
theorem loading (J : JsonText) (L : Libraries) (pg : Postgres) (events : List Event)
    (db : Database) (attempts : List (Attempt J L)) :
    Loading J L pg events db.toTables (outcomes pg events db attempts)
      (loadAll pg events db attempts) :=
  loading_of_take ⟨0, rfl⟩ attempts

end Pipeline
