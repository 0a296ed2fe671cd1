/-
The sender's daemon (`sender/src/daemon.ts`): one batch, sent and settled.

* `currentBatchCap`, `splitCurrentBatch`, `advanceSplitSegments` — the plan that a 413 leaves
  for the head of the queue;
* `settle` — what a decision does to the outbox;
* `sendBatch` — a batch and the answer to it, if one came.
-/
import LogStack.Ack

open FileProgram

namespace Sender

/-! ### The split plan -/

def currentBatchCap (splitSegments : List ℕ) : ℕ := splitSegments.headD MAX_EVENTS_PER_BATCH

/-- The head segment gives way to its two halves and what the batch left of it. -/
def splitCurrentBatch (splitSegments : List ℕ) (batchLength : ℕ) : List ℕ :=
  let currentSegment := splitSegments.headD batchLength
  let segmentRemainder := currentSegment - batchLength
  let left := (batchLength + 1) / 2
  let right := batchLength - left
  [left, right, segmentRemainder].filter (fun size => 0 < size) ++ splitSegments.tail

/-- The plan after `remaining` events of the head are dealt with. -/
def advanceSplitSegments : ℕ → List ℕ → List ℕ
  | _, [] => []
  | remaining, current :: rest =>
    if remaining = 0 then current :: rest
    else if remaining < current then (current - remaining) :: rest
    else advanceSplitSegments (remaining - current) rest

/-! ### The daemon's fields -/

structure DaemonStats where
  sendAttempts : ℕ := 0
  sentBatches : ℕ := 0
  stored : ℕ := 0
  duplicate : ℕ := 0
  orderDuplicate : ℕ := 0
  quarantined : ℕ := 0
  retries : ℕ := 0
  rateLimitedWaits : ℕ := 0

structure SenderDaemon where
  authHalted : Bool := false
  splitSegments : List ℕ := []
  attempt : ℕ := 0
  stats : DaemonStats := {}

namespace SenderDaemon

/-- The head of the queue is dealt with, `quarantined` of its events as failures. -/
def advance (d : SenderDaemon) (count quarantined : ℕ) : SenderDaemon :=
  { d with
    splitSegments := advanceSplitSegments count d.splitSegments
    attempt := 0
    stats := { d.stats with quarantined := d.stats.quarantined + quarantined } }

/-- The request failed: wait and send the same events again. -/
def backOff (d : SenderDaemon) : SenderDaemon :=
  { d with
    attempt := d.attempt + 1
    stats := { d.stats with retries := d.stats.retries + 1 } }

/-- The fields after a decision about a batch of `count` events. -/
def decided (d : SenderDaemon) (count quarantined : ℕ) : AckAction → SenderDaemon
  | .confirm response =>
    let d := d.advance count quarantined
    { d with stats := { d.stats with
        sentBatches := d.stats.sentBatches + 1
        stored := d.stats.stored + response.storedCount
        duplicate := d.stats.duplicate + response.duplicateCount
        orderDuplicate := d.stats.orderDuplicate + response.orderDuplicateCount } }
  | .resend _ => { d with stats := { d.stats with retries := d.stats.retries + 1 } }
  | .halt _ => { d with authHalted := true }
  | .quarantineBatch => d.advance count quarantined
  | .split =>
    if count = 1 then d.advance 1 quarantined
    else { d with splitSegments := splitCurrentBatch d.splitSegments count }
  | .rateLimited _ =>
    { d with stats := { d.stats with rateLimitedWaits := d.stats.rateLimitedWaits + 1 } }
  | .backoff _ => d.backOff

end SenderDaemon

/-! ### One batch -/

variable (J : JsonText) (clock : Json → JsString)

def rejectedEvents (batch : List Json) (response : BatchResponse) : List Json :=
  (response.rejected.filter fun r => r.index < batch.length).filterMap fun r => batch[r.index]?

/-- The properties that `failed.jsonl` gets for rejected events, and for a whole batch. -/
def rejectedDetail (batchId : JsString) (response : BatchResponse) : List (JsString × Json) :=
  [(js "batch_id", .str batchId),
    (js "codes", .arr (response.rejected.map fun r => .str r.code))]

def batchDetail (batchId : JsString) : List (JsString × Json) := [(js "batch_id", .str batchId)]

def quarantineRejected (batchId : JsString) (batch : List Json) (response : BatchResponse) :
    OutboxM ℕ :=
  if response.rejected.isEmpty then pure 0
  else Outbox.quarantine J clock (rejectedEvents batch response) (js "rejected")
    (rejectedDetail batchId response)

/-- What a decision does to the outbox, with the number of events that it quarantines. -/
def settle (batchId : JsString) (batch : List Json) : AckAction → OutboxM ℕ
  | .confirm response => do
    let quarantined ← quarantineRejected J clock batchId batch response
    Outbox.confirm J batch.length
    pure quarantined
  | .quarantineBatch => do
    let quarantined ← Outbox.quarantine J clock batch (js "batch_malformed_400")
      (batchDetail batchId)
    Outbox.confirm J batch.length
    pure quarantined
  | .split =>
    if batch.length = 1 then do
      let quarantined ← Outbox.quarantine J clock batch (js "oversized_413")
        (batchDetail batchId)
      Outbox.confirm J 1
      pure quarantined
    else pure 0
  | .resend _ => pure 0
  | .halt _ => pure 0
  | .rateLimited _ => pure 0
  | .backoff _ => pure 0

/-- An answer to a request: status, body and the number in `Retry-After`. -/
structure Reply where
  status : ℕ
  bodyText : Bytes
  retryAfter : Option ℚ

/-- `sendBatch` from the moment the answer is there; `none` is a timeout or a network error. -/
def sendBatch (batchId : JsString) (batch : List Json) (reply : Option Reply)
    (d : SenderDaemon) : OutboxM SenderDaemon := do
  let d := { d with stats := { d.stats with sendAttempts := d.stats.sendAttempts + 1 } }
  match reply with
  | none => pure d.backOff
  | some reply =>
    let action := decideAck J reply.status reply.bodyText batchId batch reply.retryAfter
    let quarantined ← settle J clock batchId batch action
    pure (d.decided batch.length quarantined action)

end Sender
