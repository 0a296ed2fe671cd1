/-
Receiver and sender agree on what a 200 says.

* `Sound` — what a confirmed batch promises and what the daemon does about it, whatever text came
  back;
* `decideAck_of_served` — the sender confirms every 200 of the receiver;
* `ack_agreement` — both directions.
-/
import LogStack.BatchRefinement
import LogStack.Receiver
import LogStack.Settlement

open FileProgram Ingestion Outbox
open Json (string? string?_eq_some array? array?_eq_some)

namespace Sender

/-! ### What passes the check -/

section Check

variable {expected items : List Json} {seen : List ℕ} {entries : List RejectedEntry}
  {entry : RejectedEntry} {item : Json}

theorem rejectedEntry?_spec (h : rejectedEntry? expected seen item = some entry) :
    entry.index < expected.length ∧ entry.index ∉ seen := by
  unfold rejectedEntry? at h
  split at h
  · split_ifs at h with hbad
    rw [not_or, not_or] at hbad
    obtain rfl := Option.some.inj h
    exact ⟨Nat.lt_of_not_le hbad.1, hbad.2.1⟩
  · cases h

/-- By induction on the entries: their indexes are new, distinct and in range. -/
theorem validateRejected_ok (h : validateRejected expected seen items = .ok entries) :
    entries.length = items.length ∧ (entries.map RejectedEntry.index).Nodup ∧
      ∀ entry ∈ entries, entry.index < expected.length ∧ entry.index ∉ seen := by
  induction items generalizing seen entries with
  | nil =>
    obtain rfl := Except.ok.inj h
    simp
  | cons item items ih =>
    rw [validateRejected] at h
    cases hentry : rejectedEntry? expected seen item with
    | none => rw [hentry] at h; cases h
    | some entry =>
      simp only [hentry] at h
      split_ifs at h with hsame
      cases hrest : validateRejected expected (entry.index :: seen) items with
      | error reason => rw [hrest] at h; cases h
      | ok rest =>
        rw [hrest] at h
        obtain rfl := Except.ok.inj h
        obtain ⟨hlength, hnodup, hall⟩ := ih hrest
        refine ⟨by rw [List.length_cons, hlength, List.length_cons], ?_, ?_⟩
        · refine List.nodup_cons.mpr ⟨fun hmem => ?_, hnodup⟩
          obtain ⟨entry', hentry', heq⟩ := List.mem_map.mp hmem
          exact (hall entry' hentry').2 (heq ▸ List.mem_cons_self)
        · intro entry' hentry'
          rcases List.mem_cons.mp hentry' with rfl | hentry'
          · exact rejectedEntry?_spec hentry
          · exact ⟨(hall entry' hentry').1,
              fun hmem => (hall entry' hentry').2 (List.mem_cons_of_mem _ hmem)⟩

/-- What the sender may rely on when it confirms a batch of `n` events. -/
structure Trusted (n : ℕ) (response : BatchResponse) : Prop where
  indexes_nodup : (response.rejected.map RejectedEntry.index).Nodup
  indexes_lt : ∀ entry ∈ response.rejected, entry.index < n
  rejectedCount : response.rejected.length = response.rejectedCount
  rejectedCount_le : response.rejectedCount ≤ n
  resolved : n - response.rejectedCount = response.storedCount + response.duplicateCount
  orderDuplicate_le : response.orderDuplicateCount ≤ response.storedCount

theorem trusted_of_validate {value : Json} {batchId : JsString} {response : BatchResponse}
    (h : validateBatchResponse value batchId expected = .ok response) :
    Trusted expected.length response := by
  unfold validateBatchResponse at h
  split at h
  · split_ifs at h with hbatch
    split at h
    · cases h
    · rename_i body hbody
      split_ifs at h with hreceived hcounts
      cases hrejected : validateRejected expected [] body.rejected with
      | error reason => rw [hrejected] at h; cases h
      | ok entries =>
        rw [hrejected] at h
        obtain rfl := Except.ok.inj h
        obtain ⟨hlength, hnodup, hall⟩ := validateRejected_ok hrejected
        -- the checks that were passed, as equations between the counts
        simp only [not_or, not_not, not_lt] at hreceived hcounts
        obtain ⟨hsplit, haccepted, horder, hcount⟩ := hcounts
        refine ⟨hnodup, fun entry hentry => (hall entry hentry).1, hlength.trans hcount, ?_, ?_,
          horder⟩
        · show body.rejectedCount ≤ _
          omega
        · show _ - body.rejectedCount = body.stored + body.duplicate
          omega
  · cases h

end Check

/-! ### What the receiver sends passes -/

section Served

variable {J : JsonText} {L : Libraries} {pg : Postgres}

/-- The events of a batch and the ones the receiver reads: an echoed id is the event's own. -/
def SameId (event raw : Json) : Prop :=
  ∀ s, raw.get? (js "event_id") = some (.str s) → eventId event = s

theorem eventId_of_get? {event : Json} {s : JsString}
    (h : event.get? (js "event_id") = some (.str s)) : eventId event = s := by
  rw [eventId, h]

theorem sameId_of_copied {event raw : Json} (h : Copied event raw) : SameId event raw := by
  intro s hs
  obtain ⟨value, hvalue, hcopied⟩ := h.get? hs
  exact eventId_of_get? (hcopied.eq_str ▸ hvalue)

/-- One entry of `rejected`, as the receiver writes it. -/
theorem rejectedEntry?_toJson {expected : List Json} {seen : List ℕ} {r : RejectedEvent}
    (hindex : r.index < expected.length) (hseen : r.index ∉ seen) (hcode : r.code ≠ [])
    (hmessage : r.message.length ≤ maxErrorMessageLength) :
    rejectedEntry? expected seen r.toJson = some ⟨r.index, r.code, r.message⟩ := by
  have hobj : ∃ fields, r.toJson = .obj fields := ⟨_, rfl⟩
  obtain ⟨fields, hfields⟩ := hobj
  unfold rejectedEntry?
  rw [r.get?_index, r.get?_code, r.get?_message, Json.nonNegativeInteger_nat,
    hfields]
  simp only [string?]
  rw [if_neg]
  rintro (h | h | h | h)
  · omega
  · exact hseen h
  · exact hcode (List.length_eq_zero_iff.mp h)
  · rw [maxErrorMessageLength] at hmessage
    omega

/-- By induction on the events: the rejections come in ascending order, each of its own
event. -/
theorem validateRejected_toJson {before events raws : List Json} {seen : List ℕ}
    {accepted : List NormalizedEvent} {rejected : List RejectedEvent}
    (h : validateEvents L before.length raws = some (accepted, rejected))
    (hsame : List.Forall₂ SameId events raws) (hseen : ∀ i ∈ seen, i < before.length) :
    ∃ entries, validateRejected (before ++ events) seen (rejected.map RejectedEvent.toJson)
      = .ok entries := by
  induction hsame generalizing before seen accepted rejected with
  | nil =>
    simp only [validateEvents, Option.some.injEq, Prod.mk.injEq] at h
    obtain ⟨-, rfl⟩ := h
    exact ⟨[], rfl⟩
  | @cons event raw events raws hhead _ ih =>
    obtain ⟨result, accepted', rejected', hresult, hrest, h⟩ := validateEvents_cons.mp h
    have hlength : before.length + 1 = (before ++ [event]).length := by simp
    have hsplit : before ++ event :: events = (before ++ [event]) ++ events := by simp
    rw [hlength] at hrest
    cases result with
    | accepted e =>
      obtain ⟨-, rfl⟩ := h
      rw [hsplit]
      -- an accepted event leaves no entry
      exact ih hrest fun i hi => by rw [← hlength]; exact Nat.lt_succ_of_lt (hseen i hi)
    | rejected id code message =>
      obtain ⟨-, rfl⟩ := h
      obtain ⟨hid, hcode, hmessage⟩ := rejected_spec hresult
      have hseen' : ∀ i ∈ before.length :: seen, i < (before ++ [event]).length := by
        intro i hi
        rw [← hlength]
        rcases List.mem_cons.mp hi with rfl | hi
        · exact Nat.lt_succ_self _
        · exact Nat.lt_succ_of_lt (hseen i hi)
      obtain ⟨entries, hentries⟩ := ih hrest hseen'
      have hentry : rejectedEntry? (before ++ event :: events) seen
          (RejectedEvent.toJson ⟨before.length, id, code, message⟩)
            = some ⟨before.length, code, message⟩ :=
        rejectedEntry?_toJson (by simp) (fun hmem => lt_irrefl _ (hseen _ hmem)) hcode hmessage
      -- a rejection without an id matches whatever event stands there
      have hsameId : sameEventId (before ++ event :: events)
          (RejectedEvent.toJson ⟨before.length, id, code, message⟩) before.length = true := by
        rw [sameEventId, RejectedEvent.get?_event_id]
        cases id with
        | none => rfl
        | some s =>
          have hs := hhead s (hid s rfl).1
          simp [string?, hs]
      refine ⟨⟨before.length, code, message⟩ :: entries, ?_⟩
      rw [List.map_cons, validateRejected, hentry]
      simp only [hsameId, if_true]
      rw [hsplit, hentries]
      rfl

theorem bodyFields?_toJson {response : EventBatchResponse}
    (hduplicate : 0 ≤ response.duplicateCount)
    (horder : 0 ≤ response.orderDuplicateCount) :
    bodyFields? response.toJson = some {
      received := response.receivedCount
      accepted := response.acceptedCount
      stored := response.storedCount
      duplicate := response.duplicateCount.toNat
      orderDuplicate := response.orderDuplicateCount.toNat
      rejectedCount := response.rejectedCount
      rejected := response.rejected.map RejectedEvent.toJson } := by
  have hreceived : response.toJson.get? (js "received_count")
      = some (.nat response.receivedCount) := rfl
  have haccepted : response.toJson.get? (js "accepted_count")
      = some (.nat response.acceptedCount) := rfl
  have hstored : response.toJson.get? (js "stored_count") = some (.nat response.storedCount) := rfl
  have hduplicate' : response.toJson.get? (js "duplicate_count")
      = some (integer response.duplicateCount) := rfl
  have horder' : response.toJson.get? (js "order_duplicate_count")
      = some (integer response.orderDuplicateCount) := rfl
  have hrejectedCount : response.toJson.get? (js "rejected_count")
      = some (.nat response.rejectedCount) := rfl
  have hrejected : response.toJson.get? (js "rejected")
      = some (.arr (response.rejected.map RejectedEvent.toJson)) := rfl
  simp only [bodyFields?, hreceived, haccepted, hstored, hduplicate', horder', hrejectedCount,
    hrejected, Json.nonNegativeInteger_nat, nonNegativeInteger_integer hduplicate,
    nonNegativeInteger_integer horder, array?]
  rfl

/-- The counts of a response that has passed are those of the tables. -/
theorem validateBatchResponse_toJson {x : Exchange} {response : EventBatchResponse}
    {expected : List Json} (hcounts : Counts x response)
    (hlength : x.batch.events.length = expected.length)
    (hrejected : ∃ entries, validateRejected expected []
      (response.rejected.map RejectedEvent.toJson) = .ok entries) :
    ∃ result, validateBatchResponse response.toJson response.batchId expected = .ok result := by
  obtain ⟨entries, hentries⟩ := hrejected
  obtain ⟨hreceived, hsplit, hcount, haccepted, hduplicate, -, -, horder, horder'⟩ := hcounts
  have hbatchId : string? (response.toJson.get? (js "batch_id")) = some response.batchId := rfl
  have hobj : response.toJson = .obj _ := rfl
  refine ⟨⟨response.batchId, response.receivedCount, response.acceptedCount, response.storedCount,
    response.duplicateCount.toNat, response.orderDuplicateCount.toNat, response.rejectedCount,
    entries⟩, ?_⟩
  rw [hobj, validateBatchResponse, ← hobj, hbatchId, if_neg (by simp),
    bodyFields?_toJson hduplicate horder]
  simp only
  rw [if_neg (by omega), if_neg, hentries]
  · rfl
  · rw [List.length_map]
    omega

theorem plain_batchJson (batchId sentAt : JsString) (batch : List Event) :
    (batchJson batchId sentAt (batch.map Event.value)).Plain := by
  have hkeys : [js "batch_id", js "sent_at", js "events"].Pairwise
      (fun k l => JsString.keyBefore k l = true) := by decide +kernel
  refine Json.plain_obj.mpr ⟨hkeys, fun f hf => ?_⟩
  simp only [List.mem_cons, List.not_mem_nil, or_false] at hf
  rcases hf with rfl | rfl | rfl
  · exact Json.plain_str batchId
  · exact Json.plain_str sentAt
  · refine Json.plain_arr.mpr fun j hj => ?_
    obtain ⟨e, -, rfl⟩ := List.mem_map.mp hj
    exact e.plain

/-- What the receiver reads of a serialised batch. -/
theorem read_of_served {batchId sentAt : JsString} {batch : List Event} {dto : Json}
    {batchId' : JsString} {events : List Json}
    (hcopied : Copied (batchJson batchId sentAt (batch.map Event.value)) dto)
    (hbatchId : dto.get? (js "batch_id") = some (.str batchId'))
    (hevents : dto.get? (js "events") = some (.arr events)) :
    batchId' = batchId ∧ List.Forall₂ Copied (batch.map Event.value) events := by
  constructor
  · obtain ⟨value, hvalue, hcopy⟩ := hcopied.get? hbatchId
    rw [hcopy.eq_str] at hvalue
    exact (Json.str.inj (Option.some.inj hvalue)).symm
  · obtain ⟨value, hvalue, hcopy⟩ := hcopied.get? hevents
    obtain rfl : Json.arr (batch.map Event.value) = value := Option.some.inj hvalue
    cases hcopy with
    | arr h => exact h

theorem parseBody_serializeBatch (batchId sentAt : JsString) (batch : List Event) :
    parseBody J (.json (serializeBatch J batchId sentAt (batch.map Event.value)))
      = some (batchJson batchId sentAt (batch.map Event.value)) :=
  parseBody_stringify (plain_batchJson batchId sentAt batch)

/-- A 200 to a batch of the sender is the answer of `ingest` to what the receiver reads of it. -/
theorem served_of_sent {reachable : Bool} {refusal : Option Refusal} {batchId sentAt : JsString}
    {batch : List Event} {db : Tables} {r : HttpResponse} {db' : Tables}
    (h : receive J L pg reachable refusal
      (.json (serializeBatch J batchId sentAt (batch.map Event.value))) db = (r, db'))
    (hstatus : r.status = 200) :
    Served J L pg reachable (batchJson batchId sentAt (batch.map Event.value)) db r db' := by
  obtain ⟨request, hparse, hserved⟩ := receive_ok h hstatus
  rw [Content.json, serializeBatch, J.parse_stringify _ (plain_batchJson batchId sentAt batch)]
    at hparse
  obtain rfl := Option.some.inj hparse
  exact hserved

/-- The sender confirms every 200 of the receiver. -/
theorem decideAck_of_served {reachable : Bool} {refusal : Option Refusal}
    {batchId sentAt : JsString} {batch : List Event} {db : Database} {r : HttpResponse}
    {db' : Tables} (retryAfter : Option ℚ)
    (h : receive J L pg reachable refusal
      (.json (serializeBatch J batchId sentAt (batch.map Event.value))) db.toTables = (r, db'))
    (hstatus : r.status = 200) :
    ∃ response, decideAck J r.status r.body batchId (batch.map Event.value) retryAfter
      = .confirm response := by
  obtain ⟨dto, batchId', events, response, hcopy, -, hbatchId, hevents, hingest, hbody⟩ :=
    served_of_sent h hstatus
  obtain ⟨rfl, hread⟩ := read_of_served (L.copied _ _ hcopy) hbatchId hevents
  have hanswer : (serve L pg db ⟨batchId', events, reachable⟩).answer = .ok response :=
    congrArg Prod.fst hingest
  obtain ⟨accepted, rejected, hvalid, -, hresponse, -⟩ | ⟨hnone, -⟩ :=
    serve_cases L pg db ⟨batchId', events, reachable⟩
  · rw [hanswer, Answer.ok.injEq] at hresponse
    -- the receiver saw copies of the events, and copies have the same ids
    have hsame : List.Forall₂ SameId (batch.map Event.value) events :=
      hread.imp fun _ _ => sameId_of_copied
    have hpasses : ∃ entries, validateRejected (batch.map Event.value) []
        (response.rejected.map RejectedEvent.toJson) = .ok entries := by
      rw [hresponse]
      exact (validateRejected_toJson hvalid hsame (by simp) :
        ∃ entries, validateRejected ([] ++ batch.map Event.value) [] _ = .ok entries)
    have hlength : events.length = (batch.map Event.value).length := hread.length_eq.symm
    obtain ⟨result, hresult⟩ := validateBatchResponse_toJson (counts hanswer) hlength hpasses
    have hid : response.batchId = batchId' := by rw [hresponse, responseOf]
    rw [hid] at hresult
    refine ⟨result, ?_⟩
    unfold decideAck
    rw [if_pos hstatus, hbody, parseBatchResponse, J.parse_stringify _ response.plain]
    simp only [hresult]
  · exact absurd hanswer (hnone response)

end Served

/-! ### Both directions -/

/-- A batch that the daemon has left to finish: the rejected events that have no record yet are
in the failed journal and counted as quarantined, and then the whole batch is confirmed. -/
def HandsOver (J : JsonText) (clock : Json → JsString) (batchId : JsString) (batch : List Event)
    (reply : Reply) (response : BatchResponse) : Prop :=
  ∀ (d : SenderDaemon) (a : Ledger J) (ob : Outbox) (w : World String) (plan : List Fate),
    Tended J ob w a → batch.length ≤ a.pending.length → Uninterrupted plan →
    ∃ records ob' w', records = newRecords J a clock (rejectedOf batch response) (js "rejected")
        (rejectedDetailOf batchId response) ∧
      run (sendBatch J clock batchId (batch.map Event.value) (some reply) d) plan ob w
        = .returned (settledFields d batch.length records.length (some (.confirm response)))
          ob' w' ∧
      Tended J ob' w' ((a.fail records).confirm batch.length)

/-- What a decision about a batch may rest on, and what the daemon does: where it confirms, its
program hands exactly the rejected events to the failed journal and then confirms the whole
batch. -/
def Sound (J : JsonText) (clock : Json → JsString) (batchId : JsString) (batch : List Json)
    (reply : Reply) : AckAction → Prop
  | .confirm response => Trusted batch.length response ∧
      (rejectedEvents batch response).map some
        = (response.rejected.map fun entry => batch[entry.index]?) ∧
      (∀ d, sendBatch J clock batchId batch (some reply) d =
        ((if response.rejected = [] then pure 0
          else Outbox.quarantine J clock (rejectedEvents batch response) (js "rejected")
            (rejectedDetail batchId response)) >>= fun quarantined =>
          Outbox.confirm J batch.length >>= fun _ =>
            pure (settledFields d batch.length quarantined (some (.confirm response))))) ∧
      ∀ es : List Event, batch = es.map Event.value → HandsOver J clock batchId es reply response
  | _ => True

section Status

variable {J : JsonText} {status : ℕ} {bodyText : Bytes} {batchId : JsString} {batch : List Json}
  {retryAfter : Option ℚ}

/-- Only a 200 is read. -/
theorem status_of_confirm {response : BatchResponse}
    (h : decideAck J status bodyText batchId batch retryAfter = .confirm response) :
    status = 200 := by
  by_contra hstatus
  unfold decideAck at h
  rw [if_neg hstatus] at h
  split_ifs at h
  cases retryAfter <;> cases h

theorem status_of_resend {reason : JsString}
    (h : decideAck J status bodyText batchId batch retryAfter = .resend reason) :
    status = 200 := by
  by_contra hstatus
  unfold decideAck at h
  rw [if_neg hstatus] at h
  split_ifs at h
  cases retryAfter <;> cases h

end Status

theorem map_rejectedEvents {batch : List Json} {response : BatchResponse}
    (h : ∀ entry ∈ response.rejected, entry.index < batch.length) :
    (rejectedEvents batch response).map some
      = response.rejected.map fun entry => batch[entry.index]? := by
  have hfilter : (response.rejected.filter fun r => r.index < batch.length) = response.rejected :=
    List.filter_eq_self.mpr fun entry hentry => decide_eq_true (h entry hentry)
  have hsome : ∀ entry ∈ response.rejected, (batch[entry.index]?).isSome = true :=
    fun entry hentry => by simp [h entry hentry]
  obtain ⟨events, hevents⟩ := exists_rows hsome
  rw [rejectedEvents, hfilter, filterMap_rows hevents, hevents]

section Confirmed

variable {J : JsonText} {clock : Json → JsString} {batchId : JsString} {reply : Reply}
  {response : BatchResponse}

/-- The program of a batch whose answer is confirmed. -/
theorem sendBatch_of_confirm {batch : List Json} (d : SenderDaemon)
    (h : decideAck J reply.status reply.bodyText batchId batch reply.retryAfter
      = .confirm response) :
    sendBatch J clock batchId batch (some reply) d =
      ((if response.rejected = [] then pure 0
        else Outbox.quarantine J clock (rejectedEvents batch response) (js "rejected")
          (rejectedDetail batchId response)) >>= fun quarantined =>
        Outbox.confirm J batch.length >>= fun _ =>
          pure (settledFields d batch.length quarantined (some (.confirm response)))) := by
  simp only [sendBatch, h, settle, quarantineRejected, List.isEmpty_iff, Prog.bind_assoc]
  rfl

theorem handsOver_of_confirm {batch : List Event}
    (h : decideAck J reply.status reply.bodyText batchId (batch.map Event.value) reply.retryAfter
      = .confirm response) : HandsOver J clock batchId batch reply response := by
  intro d a ob w plan htended hbatch hplan
  have hdecision : decision J batchId batch (some reply) = some (.confirm response) :=
    congrArg some h
  have hwp : wp Fate.Crash (fun r ob' w' =>
      r = .ok (settledFields d batch.length
        (givenUp a clock (handling batchId batch (.confirm response))).length
        (some (.confirm response))) ∧
        Tended J ob' w' (handled a clock (handling batchId batch (.confirm response))))
      (fun _ => True) (sendBatch J clock batchId (batch.map Event.value) (some reply) d) ob w := by
    refine wp_sendBatch htended hbatch (fun _ _ _ _ => trivial) fun ob' w' htended' => ?_
    rw [hdecision] at htended' ⊢
    exact ⟨rfl, htended'⟩
  obtain ⟨_, ob', w', hrun, hfields, htended'⟩ := returned_of_wp hplan hwp
    fun e ob w hQ => absurd hQ.1 (by simp)
  exact ⟨_, ob', w', rfl, by rw [hrun, Except.ok.inj hfields]; rfl, htended'⟩

end Confirmed

theorem sound_decideAck (J : JsonText) (clock : Json → JsString) (batchId : JsString)
    (batch : List Json) (reply : Reply) : Sound J clock batchId batch reply
      (decideAck J reply.status reply.bodyText batchId batch reply.retryAfter) := by
  cases h : decideAck J reply.status reply.bodyText batchId batch reply.retryAfter with
  | confirm response =>
    -- only a 200 whose body passes the validation is confirmed
    have htrusted : Trusted batch.length response := by
      unfold decideAck at h
      split_ifs at h with hstatus
      · rw [parseBatchResponse] at h
        cases hparse : J.parse reply.bodyText with
        | none => simp [hparse] at h
        | some value =>
          cases hresult : validateBatchResponse value batchId batch with
          | error reason => simp [hparse, hresult] at h
          | ok result =>
            obtain rfl : result = response := by simpa [hparse, hresult] using h
            exact trusted_of_validate hresult
      · cases hretry : reply.retryAfter <;> rw [hretry] at h <;> cases h
    refine ⟨htrusted, map_rejectedEvents htrusted.indexes_lt, fun d => sendBatch_of_confirm d h,
      fun es hes => handsOver_of_confirm ?_⟩
    rw [← hes]
    exact h
  | _ => trivial

/-- **Receiver and sender agree.** The sender confirms a batch exactly when the receiver's
answer to it has status 200, and resends none of these. Whatever text it confirms, it hands
exactly the rejected events to the failed journal and then confirms the whole batch. -/
theorem ack_agreement (J : JsonText) (L : Libraries) (pg : Postgres) :
    (∀ (db : Database) (reachable : Bool) (refusal : Option Refusal) (batchId sentAt : JsString)
        (batch : List Event) (retryAfter : Option ℚ),
      let r := (receive J L pg reachable refusal
        (.json (serializeBatch J batchId sentAt (batch.map Event.value))) db.toTables).1
      (r.status = 200 ↔ ∃ response, decideAck J r.status r.body batchId
          (batch.map Event.value) retryAfter = .confirm response) ∧
        ∀ reason, decideAck J r.status r.body batchId (batch.map Event.value) retryAfter
          ≠ .resend reason) ∧
    ∀ (reply : Reply) (batchId : JsString) (batch : List Json) (clock : Json → JsString),
      Sound J clock batchId batch reply
        (decideAck J reply.status reply.bodyText batchId batch reply.retryAfter) := by
  refine ⟨fun db reachable refusal batchId sentAt batch retryAfter => ?_,
    fun reply batchId batch clock => sound_decideAck J clock batchId batch reply⟩
  intro r
  have hserved : r.status = 200 → ∃ response, decideAck J r.status r.body batchId
      (batch.map Event.value) retryAfter = .confirm response :=
    decideAck_of_served retryAfter rfl
  refine ⟨⟨hserved, ?_⟩, fun reason h => ?_⟩
  · rintro ⟨response, h⟩
    exact status_of_confirm h
  · obtain ⟨response, hconfirm⟩ := hserved (status_of_resend h)
    rw [hconfirm] at h
    cases h

end Sender
