/-
The sender's reading of a response (`sender/src/ack.ts`, `scripts/send-events.ts`).

* `serializeBatch` — the body of a request;
* `validateBatchResponse` — the check of a 200 against the batch that was sent;
* `decideAck` — what to do about a response.
-/
import LogStack.Outbox

open Json (string? string?_eq_some)

namespace Sender

/-! ### Requests -/

def MAX_EVENTS_PER_BATCH : ℕ := 500

def MAX_BATCH_BYTES : ℕ := 3 * 1024 * 1024

def BATCH_ID_SIZE_TEMPLATE : JsString := js "00000000-0000-4000-8000-000000000000"

def SENT_AT_SIZE_TEMPLATE : JsString := js "2000-01-01T00:00:00.000Z"

def batchJson (batchId sentAt : JsString) (events : List Json) : Json :=
  .obj [(js "batch_id", .str batchId), (js "sent_at", .str sentAt), (js "events", .arr events)]

def serializeBatch (J : JsonText) (batchId sentAt : JsString) (events : List Json) : Bytes :=
  J.stringify (batchJson batchId sentAt events)

def EMPTY_BATCH_BODY_BYTES (J : JsonText) : ℕ :=
  (serializeBatch J BATCH_ID_SIZE_TEMPLATE SENT_AT_SIZE_TEMPLATE []).length

/-! ### The check of a 200 -/

/-- An entry of `rejected`; its `event_id` has done its work once it is checked. -/
structure RejectedEntry where
  index : ℕ
  code : JsString
  message : JsString

structure BatchResponse where
  batchId : JsString
  receivedCount : ℕ
  acceptedCount : ℕ
  storedCount : ℕ
  duplicateCount : ℕ
  orderDuplicateCount : ℕ
  rejectedCount : ℕ
  rejected : List RejectedEntry

abbrev BatchResponseValidation := Except JsString BatchResponse

/-- The type and range checks of one entry of `rejected`. -/
def rejectedEntry? (expectedEvents : List Json) (seenIndexes : List ℕ) (rejected : Json) :
    Option RejectedEntry :=
  match rejected, Json.nonNegativeInteger (rejected.get? (js "index")),
      string? (rejected.get? (js "code")), string? (rejected.get? (js "message")) with
  | .obj _, some index, some code, some message =>
    if expectedEvents.length ≤ index ∨ index ∈ seenIndexes ∨ code.length = 0 ∨
        200 < message.length then none
    else some ⟨index, code, message⟩
  | _, _, _, _ => none

/-- `rejected.event_id` is absent, or it is the id of the event at that index. -/
def sameEventId (expectedEvents : List Json) (rejected : Json) (index : ℕ) : Bool :=
  match rejected.get? (js "event_id") with
  | none => true
  | some id => string? (some id) = (expectedEvents[index]?).map eventId

/-- The loop over `rejected`. -/
def validateRejected (expectedEvents : List Json) :
    List ℕ → List Json → Except JsString (List RejectedEntry)
  | _, [] => .ok []
  | seenIndexes, rejected :: rest =>
    match rejectedEntry? expectedEvents seenIndexes rejected with
    | none => .error (js "rejected entry invalid")
    | some entry =>
      if sameEventId expectedEvents rejected entry.index then
        (validateRejected expectedEvents (entry.index :: seenIndexes) rest).map (entry :: ·)
      else .error (js "rejected event_id mismatch")

/-- The six counts and the list of rejections of a body. -/
structure BodyFields where
  received : ℕ
  accepted : ℕ
  stored : ℕ
  duplicate : ℕ
  orderDuplicate : ℕ
  rejectedCount : ℕ
  rejected : List Json

def bodyFields? (value : Json) : Option BodyFields := do
  pure {
    received := ← Json.nonNegativeInteger (value.get? (js "received_count"))
    accepted := ← Json.nonNegativeInteger (value.get? (js "accepted_count"))
    stored := ← Json.nonNegativeInteger (value.get? (js "stored_count"))
    duplicate := ← Json.nonNegativeInteger (value.get? (js "duplicate_count"))
    orderDuplicate := ← Json.nonNegativeInteger (value.get? (js "order_duplicate_count"))
    rejectedCount := ← Json.nonNegativeInteger (value.get? (js "rejected_count"))
    rejected := ← Json.array? (value.get? (js "rejected")) }

def validateBatchResponse (value : Json) (expectedBatchId : JsString)
    (expectedEvents : List Json) : BatchResponseValidation :=
  match value with
  | .obj _ =>
    if string? (value.get? (js "batch_id")) ≠ some expectedBatchId then
      .error (js "batch_id mismatch")
    else
      match bodyFields? value with
      | none => .error (js "body schema invalid")
      | some body =>
        if body.received ≠ expectedEvents.length then .error (js "received_count mismatch")
        else if body.received ≠ body.accepted + body.rejectedCount ∨
            body.accepted ≠ body.stored + body.duplicate ∨ body.stored < body.orderDuplicate ∨
            body.rejected.length ≠ body.rejectedCount then
          .error (js "count invariant violated")
        else
          (validateRejected expectedEvents [] body.rejected).map fun rejected =>
            ⟨expectedBatchId, body.received, body.accepted, body.stored, body.duplicate,
              body.orderDuplicate, body.rejectedCount, rejected⟩
  | _ => .error (js "body schema invalid")

def parseBatchResponse (J : JsonText) (bodyText : Bytes) (expectedBatchId : JsString)
    (expectedEvents : List Json) : BatchResponseValidation :=
  match J.parse bodyText with
  | none => .error (js "body parse failed")
  | some parsed => validateBatchResponse parsed expectedBatchId expectedEvents

/-! ### Decisions -/

inductive AckAction where
  | confirm (response : BatchResponse)
  | resend (reason : JsString)
  | halt (status : ℕ)
  | quarantineBatch
  | split
  | rateLimited (retryAfterSec : ℚ)
  | backoff (status : ℕ)

/-- `decideAck`. `retryAfter` is the number in the `Retry-After` header, when it is finite. -/
def decideAck (J : JsonText) (status : ℕ) (bodyText : Bytes) (expectedBatchId : JsString)
    (expectedEvents : List Json) (retryAfter : Option ℚ) : AckAction :=
  if status = 200 then
    match parseBatchResponse J bodyText expectedBatchId expectedEvents with
    | .ok response => .confirm response
    | .error reason => .resend reason
  else if status = 401 ∨ status = 403 then .halt status
  else if status = 400 then .quarantineBatch
  else if status = 413 then .split
  else if status = 429 then
    match retryAfter with
    | some seconds => .rateLimited (if 0 < seconds then seconds else 1)
    | none => .rateLimited 1
  else .backoff status

end Sender
