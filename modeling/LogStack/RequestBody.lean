/-
The head of the queue as a request (`scripts/send-events.ts`, `Outbox.peekBatch`).

* `batchBodyByteLength` — the size of a request, event by event;
* `length_serializeBatch` — a request with a batch id and a time as long as the templates has
  that size;
* `peekBatch_spec` — a batch is a head of the queue of at most `maxCount` events, and it is
  empty only with the queue.
-/
import LogStack.Settlement

open Outbox

namespace Sender

variable (J : JsonText)

/-- The commas between events are counted with the event behind them. -/
def batchBodyByteLength (events : List Json) : ℕ :=
  EMPTY_BATCH_BODY_BYTES J + (events.mapIdx fun index event =>
    (J.stringify event).length + (if index = 0 then 0 else 1)).sum

/-- The batch id and the time of a request. `randomUUID` and `toISOString` give texts as long
as the templates. -/
structure Stamp where
  batchId : JsString
  sentAt : JsString
  batchId_length : (J.stringify (.str batchId)).length
    = (J.stringify (.str BATCH_ID_SIZE_TEMPLATE)).length
  sentAt_length : (J.stringify (.str sentAt)).length
    = (J.stringify (.str SENT_AT_SIZE_TEMPLATE)).length

/-- The stamp whose texts are the templates. -/
def Stamp.template : Stamp J := ⟨BATCH_ID_SIZE_TEMPLATE, SENT_AT_SIZE_TEMPLATE, rfl, rfl⟩

variable {J}

/-! ### Sizes -/

theorem length_intercalate_comma (texts : List Bytes) :
    (List.intercalate [0x2c] texts).length
      = (texts.mapIdx fun index text => text.length + (if index = 0 then 0 else 1)).sum := by
  have htail : ∀ rest : List Bytes, ∀ text : Bytes,
      (List.intercalate [0x2c] (text :: rest)).length
        = text.length + (rest.map fun text => text.length + 1).sum := by
    intro rest
    induction rest with
    | nil => intro text; simp [List.intercalate]
    | cons next rest ih =>
      intro text
      rw [List.intercalate_cons_cons, List.length_append, List.length_append, ih]
      simp only [List.length_singleton, List.map_cons, List.sum_cons]
      omega
  cases texts with
  | nil => rfl
  | cons text rest =>
    rw [htail, List.mapIdx_cons, List.sum_cons]
    have hrest : rest.mapIdx (fun index text => text.length + (if index + 1 = 0 then 0 else 1))
        = rest.map fun text => text.length + 1 := by
      refine List.ext_getElem? fun i => ?_
      simp only [Nat.succ_ne_zero, if_false, List.getElem?_mapIdx, List.getElem?_map]
    rw [if_pos rfl, Nat.add_zero, hrest]

theorem length_serializeBatch (stamp : Stamp J) (events : List Json) :
    (serializeBatch J stamp.batchId stamp.sentAt events).length
      = batchBodyByteLength J events := by
  have hbatchId := stamp.batchId_length
  have hsentAt := stamp.sentAt_length
  have hevents : (events.map J.stringify).mapIdx
      (fun index text => text.length + (if index = 0 then 0 else 1))
      = events.mapIdx fun index event =>
          (J.stringify event).length + (if index = 0 then 0 else 1) := by
    simp only [List.mapIdx_eq_zipIdx_map, List.zipIdx_map, List.map_map]
    rfl
  simp only [batchBodyByteLength, EMPTY_BATCH_BODY_BYTES, serializeBatch, batchJson,
    J.stringify_obj, J.stringify_arr, List.length_cons, List.length_append,
    length_intercalate_comma, List.map_cons, List.map_nil, List.mapIdx_cons, List.mapIdx_nil,
    List.sum_cons, List.sum_nil, hevents, List.length_nil]
  omega

/-- One event of a batch takes no more than the batch. -/
theorem batchBodyByteLength_singleton_le {event : Json} {events : List Json}
    (h : event ∈ events) : batchBodyByteLength J [event] ≤ batchBodyByteLength J events := by
  obtain ⟨before, after, rfl⟩ := List.append_of_mem h
  simp only [batchBodyByteLength, List.mapIdx_cons, List.mapIdx_nil, List.sum_cons,
    List.sum_nil, List.mapIdx_append, List.sum_append, if_true, Nat.add_zero]
  omega

/-! ### The head of the queue -/

/-- By induction on the queue: what is taken are the first events behind the batch so far. -/
theorem peekBatchFrom_spec {maxCount : ℕ} (maxBytes : ℕ) (entries : List PendingEntry)
    (batch : List Json) (bytes : ℕ) (h : batch.length ≤ maxCount) :
    ∃ n ≤ entries.length, batch.length + n ≤ maxCount ∧
      peekBatchFrom maxCount maxBytes entries batch bytes
        = batch ++ (entries.take n).map PendingEntry.event := by
  induction entries generalizing batch bytes with
  | nil => exact ⟨0, le_rfl, h, by simp [peekBatchFrom]⟩
  | cons entry entries ih =>
    rw [peekBatchFrom]
    by_cases hfull : maxCount ≤ batch.length
    · exact ⟨0, Nat.zero_le _, h, by simp [if_pos hfull]⟩
    rw [if_neg hfull]
    dsimp only
    by_cases hbytes : 0 < batch.length ∧
        maxBytes < bytes + (entry.eventBytes + if batch.length = 0 then 0 else 1)
    · exact ⟨0, Nat.zero_le _, h, by rw [if_pos hbytes]; simp⟩
    rw [if_neg hbytes]
    have hlength : (batch ++ [entry.event]).length = batch.length + 1 := by simp
    obtain ⟨n, hn, hcount, heq⟩ := ih (batch ++ [entry.event])
      (bytes + (entry.eventBytes + if batch.length = 0 then 0 else 1)) (by omega)
    refine ⟨n + 1, Nat.succ_le_succ hn, by omega, ?_⟩
    rw [heq, List.take_succ_cons, List.map_cons, List.append_assoc]
    rfl

theorem length_peekBatch_le (ob : Outbox) (emptyBytes maxCount maxBytes : ℕ) :
    (ob.peekBatch emptyBytes maxCount maxBytes).length ≤ maxCount := by
  obtain ⟨n, -, hcount, heq⟩ :=
    peekBatchFrom_spec maxBytes ob.pending [] emptyBytes (Nat.zero_le maxCount)
  rw [List.length_nil, Nat.zero_add] at hcount
  rw [peekBatch, heq, List.nil_append, List.length_map, List.length_take]
  exact (min_le_left _ _).trans hcount

/-- A first event is taken whatever its size. -/
theorem peekBatchFrom_cons {maxCount maxBytes : ℕ} {entry : PendingEntry}
    {entries : List PendingEntry} {bytes : ℕ} (h : 0 < maxCount) :
    peekBatchFrom maxCount maxBytes (entry :: entries) [] bytes
      = peekBatchFrom maxCount maxBytes entries [entry.event] (bytes + entry.eventBytes) := by
  rw [peekBatchFrom, List.length_nil, if_neg (Nat.not_le_of_lt h)]
  simp

theorem peekBatch_spec (ob : Outbox) (emptyBytes maxBytes : ℕ) {maxCount : ℕ} (h : 0 < maxCount) :
    ∃ n ≤ ob.pendingCount, n ≤ maxCount ∧ (ob.pending ≠ [] → 0 < n) ∧
      ob.peekBatch emptyBytes maxCount maxBytes = (ob.pending.take n).map PendingEntry.event := by
  rw [peekBatch, pendingCount]
  cases hpending : ob.pending with
  | nil => exact ⟨0, Nat.zero_le _, Nat.zero_le _, fun hne => absurd rfl hne, rfl⟩
  | cons entry entries =>
    rw [peekBatchFrom_cons h]
    obtain ⟨n, hn, hcount, heq⟩ :=
      peekBatchFrom_spec maxBytes entries [entry.event] (emptyBytes + entry.eventBytes) h
    rw [List.length_singleton] at hcount
    refine ⟨n + 1, Nat.succ_le_succ hn, by omega, fun _ => Nat.succ_pos n, ?_⟩
    rw [heq]
    rfl

end Sender
