/-
Bisecting what the receiver finds too large.

* `PlanFits` — the plan of a 413 lies at the head of the queue, and the next batch in its
  first segment;
* `SizeVerdict` — a receiver that answers 413 exactly to bodies over a limit and otherwise
  acknowledges the batch;
* `Delivered` — what such a receiver has been sent, and in how many requests;
* `bisection` — both, for every run.
-/
import LogStack.SendLoop
import LogStack.AckAgreement

open FileProgram KeyedInsert Outbox Simulation

namespace Sender

variable {J : JsonText}

/-! ### The plan -/

/-- The loop is running, the plan lies at the head of the queue, and where there is a plan
the next batch lies within its first segment. -/
def PlanFits (s : Option (SendLoop J)) : Prop :=
  ∃ s', s = some s' ∧ SplitPlan s'.daemon.splitSegments s'.outbox.pendingCount ∧
    (s'.daemon.splitSegments ≠ [] →
      InHead s'.daemon.splitSegments s'.outbox.pendingCount s'.peekBatch.length)

/-- Whatever the answers are. -/
def anyAnswer (_ : LoopAction J) (_ : Option (SendLoop J)) : Prop := True

variable {clock : Json → JsString} {s : SendLoop J} {a : Ledger J}

theorem LoopInv.planFits (h : LoopInv s a) : PlanFits (some s) := by
  have hplan := h.plan
  rw [← h.tended.pendingCount] at hplan
  refine ⟨s, rfl, hplan, fun hne => ?_⟩
  obtain ⟨n, hpos, hn, hpeek⟩ := peekBatch_inHead h
  have hpending : a.pending ≠ [] := by
    intro hnil
    have hlength := h.plan.length_le
    rw [hnil] at hlength
    exact hne (List.length_eq_zero_iff.mp (Nat.le_zero.mp hlength))
  have hle : n ≤ a.pending.length :=
    InHead.le_pending h.plan ⟨hpos hpending, hn⟩
  rw [hpeek, List.length_map, List.length_take_of_le hle, h.tended.pendingCount]
  exact ⟨hpos hpending, hn⟩

variable (clock) in
/-- Every step keeps the loop together. -/
theorem loopInv_step {input : LoopAction J × List Fate} (h : LoopInv s a)
    (hplan : Uninterrupted input.2) :
    ∃ s' : SendLoop J, ∃ a' : Ledger J, loopStep clock input s = some s' ∧ LoopInv s' a' := by
  obtain ⟨act, plan⟩ := input
  cases act with
  | append es =>
    obtain ⟨ob, w, hstep, h'⟩ := append_step clock h es hplan
    exact ⟨_, _, hstep, h'⟩
  | send stamp => exact ⟨_, a, rfl, send_step h stamp⟩
  | answer reply =>
    cases hrequest : s.inFlight with
    | none => exact ⟨s, a, by rw [loopStep, hrequest], h⟩
    | some request =>
      obtain ⟨batch, -, -, -, ob, w, hstep, h'⟩ :=
        answer_step clock h hrequest reply hplan
      exact ⟨_, _, hstep, h'⟩

/-! ### A receiver with a size limit -/

/-- A 413 exactly for a body over the limit, and otherwise a 200 without rejections. -/
def SizeVerdict (limit : ℕ) (request : Request J) (reply : Reply) : Prop :=
  if limit < request.body.length then reply.status = 413
  else reply.status = 200 ∧ ∃ response,
    parseBatchResponse J reply.bodyText request.batchId request.batch = .ok response ∧
      response.rejected = []

/-- Every request gets the answer that its size asks for. -/
def sizedAnswer (limit : ℕ) : LoopAction J → Option (SendLoop J) → Prop
  | .answer reply, some s => ∀ request, s.inFlight = some request →
      ∃ r, reply = some r ∧ SizeVerdict limit request r
  | _, _ => True

/-- The request of one event is over the limit. -/
def Oversized (J : JsonText) (limit : ℕ) (e : Event) : Bool :=
  limit < batchBodyByteLength J [e.value]

/-- There is such an answer to every request. -/
theorem exists_sizeVerdict (limit : ℕ) (request : Request J) :
    ∃ reply, SizeVerdict limit request reply := by
  by_cases hlimit : limit < request.body.length
  · exact ⟨⟨413, [], none⟩, by rw [SizeVerdict, if_pos hlimit]⟩
  · let response : Ingestion.EventBatchResponse := {
      batchId := request.batchId
      receivedCount := request.batch.length
      acceptedCount := request.batch.length
      storedCount := request.batch.length
      duplicateCount := 0
      orderDuplicateCount := 0
      rejectedCount := 0
      rejected := [] }
    have hparse : parseBatchResponse J (J.stringify response.toJson) request.batchId request.batch
        = .ok ⟨request.batchId, request.batch.length, request.batch.length,
            request.batch.length, 0, 0, 0, []⟩ := by
      have hbatchId : Json.string? (response.toJson.get? (js "batch_id"))
          = some request.batchId := rfl
      rw [parseBatchResponse, J.parse_stringify _ response.plain]
      simp only
      rw [show response.toJson = .obj _ from rfl, validateBatchResponse,
        ← show response.toJson = .obj _ from rfl, hbatchId, if_neg (by simp),
        bodyFields?_toJson (show 0 ≤ response.duplicateCount from le_rfl)
          (show 0 ≤ response.orderDuplicateCount from le_rfl)]
      simp [response, validateRejected]
      rfl
    refine ⟨⟨200, J.stringify response.toJson, none⟩, ?_⟩
    rw [SizeVerdict, if_neg hlimit]
    exact ⟨rfl, _, hparse, rfl⟩

/-! ### What has been sent -/

/-- The events of a run in the order of their recording, how many of them are done, and the
requests for them: how many are answered, and whether there is one more. -/
structure Delivery where
  recorded : List Event
  finished : ℕ
  answered : ℕ
  underway : Bool

namespace Delivery

def done (d : Delivery) : List Event := d.recorded.take d.finished

def left (d : Delivery) : List Event := d.recorded.drop d.finished

end Delivery

/-- Appending records its events, and only answers to a request finish any. -/
def DeliveryEffect (input : LoopAction J × List Fate) (_ : Unit) (s' : Option (SendLoop J))
    (d d' : Delivery) : Prop :=
  match input.1 with
  | .append es => d' = { d with recorded := d.recorded ++ es }
  | .send _ => d' = { d with underway := (s'.bind SendLoop.inFlight).isSome }
  | .answer _ => d'.recorded = d.recorded ∧ d.finished ≤ d'.finished ∧
      d'.answered = d.answered + d.underway.toNat ∧ d'.underway = false

/-- A record of the failed journal with the reason `oversized_413`. -/
def OversizedRecord (clock : Json → JsString) (record : FailedLine J) (e : Event) : Prop :=
  ∃ batchId, record
    = recordLine J (clock e.value) (js "oversized_413") (batchDetailOf batchId) e

variable (clock) in
/-- What the run has come to, under a receiver that takes bodies up to `limit`. The events
that are done came in the order of their recording: each one that fits was confirmed once,
and the others are the new records of the failed journal, one for each id. -/
structure Delivered (limit : ℕ) (b : Backlog J) (s : SendLoop J) (d : Delivery) : Prop where
  finished_le : d.finished ≤ d.recorded.length
  queue : s.outbox.pending.map PendingEntry.event = d.left.map Event.value
  confirmed : s.acknowledged
    = (d.done.filter fun e => !Oversized J limit e).map Event.value
  quarantined : ∃ new, (s.world.files failedPath).getD [] = failedText (b.ledger.failed ++ new) ∧
    List.Forall₂ (OversizedRecord clock) new
      (firstNew Event.id b.ledger.failedIds (d.done.filter fun e => Oversized J limit e))
  underway : d.underway = s.inFlight.isSome
  counted : s.daemon.stats.sendAttempts = d.answered
  /-- `2 * N - 1` requests for `N` events, and fewer while some are left. -/
  requests : d.answered ≤ 2 * d.recorded.length - 1
  unfinished : d.left ≠ [] → d.answered + 1 ≤ 2 * d.recorded.length - 1
  /-- While events are left, a pass of the loop sends some, unless it waits for an answer. -/
  sends : d.left ≠ [] → ∀ stamp, (s.send stamp).inFlight ≠ none

variable (clock) in
structure Progress (limit : ℕ) (b : Backlog J) (s : SendLoop J) (a : Ledger J) (d : Delivery) :
    Prop where
  loop : LoopInv s a
  pending : a.pending = d.left
  finished_le : d.finished ≤ d.recorded.length
  confirmed : s.acknowledged
    = (d.done.filter fun e => !Oversized J limit e).map Event.value
  quarantined : ∃ new, a.failed = b.ledger.failed ++ new ∧
    List.Forall₂ (OversizedRecord clock) new
      (firstNew Event.id b.ledger.failedIds (d.done.filter fun e => Oversized J limit e))
  running : s.daemon.authHalted = false
  underway : d.underway = s.inFlight.isSome
  counted : s.daemon.stats.sendAttempts = d.answered
  /-- Each request finishes an event or adds a segment. -/
  requests : d.answered = 0 ∨
    d.answered + 1 ≤ 2 * d.finished + s.daemon.splitSegments.length

variable {limit : ℕ} {b : Backlog J} {d : Delivery}

theorem Progress.delivered (h : Progress clock limit b s a d) : Delivered clock limit b s d := by
  obtain ⟨new, hfailed, hrecords⟩ := h.quarantined
  have hlength : d.left.length = d.recorded.length - d.finished := List.length_drop
  have hfinished := h.finished_le
  have hsegments := h.loop.plan.length_le
  rw [h.pending] at hsegments
  have hleft : d.left ≠ [] → 0 < d.left.length := List.length_pos_iff.mpr
  refine ⟨h.finished_le, ?_, h.confirmed, ⟨new, ?_, hrecords⟩, h.underway, h.counted, ?_,
    fun hne => ?_, fun hne stamp => ?_⟩
  · rw [h.loop.tended.pending_eq, h.pending, List.map_map]
    rfl
  · rw [h.loop.tended.failed, hfailed]
  · rcases h.requests with hnone | hrequests
    · omega
    · omega
  · have hpos := hleft hne
    rcases h.requests with hnone | hrequests
    · omega
    · omega
  · obtain ⟨n, hpos, -, hpeek⟩ := peekBatch_inHead h.loop
    have hbatch : s.peekBatch.isEmpty = false := by
      obtain ⟨e, es, hes⟩ := List.exists_cons_of_ne_nil (h.pending ▸ hne)
      obtain ⟨m, rfl⟩ := Nat.exists_eq_succ_of_ne_zero (hpos (h.pending ▸ hne)).ne'
      rw [hpeek, hes]
      rfl
    rw [SendLoop.send, h.running, hbatch]
    cases hrequest : s.inFlight with
    | none => simp
    | some request => simp [hrequest]

/-! ### One answer -/

theorem decideAck_413 {bodyText : Bytes} {batchId : JsString} {batch : List Json}
    {retryAfter : Option ℚ} : decideAck J 413 bodyText batchId batch retryAfter = .split := by
  simp [decideAck]

/-- What a size verdict lets the sender decide. -/
theorem decision_of_sizeVerdict {request : Request J} {reply : Reply} {batch : List Event}
    (hbatch : request.batch = batch.map Event.value) (h : SizeVerdict limit request reply) :
    (limit < batchBodyByteLength J request.batch ∧
      decision J request.batchId batch (some reply) = some .split ∧
      confirmedBy request (some reply) = []) ∨
    (batchBodyByteLength J request.batch ≤ limit ∧ ∃ response, response.rejected = [] ∧
      decision J request.batchId batch (some reply) = some (.confirm response) ∧
      confirmedBy request (some reply) = request.batch) := by
  have hbody : request.body.length = batchBodyByteLength J request.batch :=
    length_serializeBatch request.toStamp request.batch
  rw [SizeVerdict, hbody] at h
  by_cases hlimit : limit < batchBodyByteLength J request.batch
  · rw [if_pos hlimit] at h
    refine .inl ⟨hlimit, ?_, ?_⟩
    · rw [decision, Option.map_some, h, decideAck_413]
    · rw [confirmedBy, Option.map_some, h, decideAck_413]
  · rw [if_neg hlimit] at h
    obtain ⟨hstatus, response, hresponse, hrejected⟩ := h
    have haction : decideAck J reply.status reply.bodyText request.batchId request.batch
        reply.retryAfter = .confirm response := by
      simp only [decideAck, if_pos hstatus, hresponse]
    refine .inr ⟨Nat.le_of_not_lt hlimit, response, hrejected, ?_, ?_⟩
    · rw [decision, Option.map_some, ← hbatch, haction]
    · rw [confirmedBy, Option.map_some, haction]

section Finish

variable {batch : List Event}

/-- With one more answer, the next events of the queue are done. -/
def Delivery.finish (d : Delivery) (count : ℕ) : Delivery :=
  { d with finished := d.finished + count, answered := d.answered + 1, underway := false }

theorem done_finish (hbatch : batch <+: d.left) :
    (d.finish batch.length).done = d.done ++ batch := by
  rw [Delivery.done, Delivery.finish, List.take_add, ← Delivery.done, ← Delivery.left,
    ← List.prefix_iff_eq_take.mp hbatch]

theorem left_finish (count : ℕ) : (d.finish count).left = d.left.drop count := by
  rw [Delivery.left, Delivery.finish, ← List.drop_drop, ← Delivery.left]

theorem finish_le (hbatch : batch <+: d.left) (hle : d.finished ≤ d.recorded.length) :
    (d.finish batch.length).finished ≤ (d.finish batch.length).recorded.length := by
  have hlength := hbatch.length_le
  rw [Delivery.left, List.length_drop] at hlength
  show d.finished + batch.length ≤ d.recorded.length
  omega

/-- A record bears the id of its event. -/
theorem map_id_of_oversized {records : List (FailedLine J)} {es : List Event}
    (h : List.Forall₂ (OversizedRecord clock) records es) :
    records.map FailedLine.id = es.map Event.id := by
  induction h with
  | nil => rfl
  | cons hrecord _ ih =>
    obtain ⟨batchId, rfl⟩ := hrecord
    rw [List.map_cons, List.map_cons, ih]
    rfl

theorem oversized_recordLines (batchId : JsString) (es : List Event) :
    List.Forall₂ (OversizedRecord clock)
      (recordLines J clock (js "oversized_413") (batchDetailOf batchId) es) es := by
  induction es with
  | nil => exact .nil
  | cons e es ih => exact .cons ⟨batchId, rfl⟩ ih

variable {ob : Outbox} {w : World String} {quarantined : ℕ}

/-- A single event that does not fit is given up. -/
theorem Progress.giveUp {e : Event} {batchId : JsString} (h : Progress clock limit b s a d)
    (hbatch : [e] <+: d.left) (hover : Oversized J limit e = true)
    (hsegments : s.daemon.splitSegments.length
      ≤ (advanceSplitSegments 1 s.daemon.splitSegments).length + 1)
    (hloop : LoopInv (⟨ob, w, settledFields s.daemon 1 quarantined (some .split), none,
        s.acknowledged⟩ : SendLoop J) (handled a clock (handlingOf batchId [e] (some .split)))) :
    Progress clock limit b ⟨ob, w, settledFields s.daemon 1 quarantined (some .split), none,
      s.acknowledged⟩ (handled a clock (handlingOf batchId [e] (some .split))) (d.finish 1) := by
  obtain ⟨new, hfailed, hrecords⟩ := h.quarantined
  have hdone : (d.finish 1).done = d.done ++ [e] := done_finish hbatch
  have hnew := map_id_of_oversized hrecords
  -- what the journal knew before is what earlier refusals have written
  have hknown : firstNew Event.id ((firstNew Event.id b.ledger.failedIds
      (d.done.filter fun e => Oversized J limit e)).map Event.id ++ b.ledger.failedIds) [e]
      = firstNew Event.id a.failedIds [e] := by
    refine firstNew_congr fun id => ?_
    rw [← hnew, Ledger.failedIds, Ledger.failedIds, hfailed, List.map_append, List.mem_append,
      List.mem_append, or_comm]
  refine ⟨hloop, ?_, finish_le hbatch h.finished_le, ?_, ⟨new ++ givenUp a clock
    (handlingOf batchId [e] (some .split)), ?_, ?_⟩, h.running, rfl,
    congrArg (· + 1) h.counted, .inr ?_⟩
  · rw [left_finish, ← h.pending]
    rfl
  · rw [hdone, List.filter_append, List.filter_cons_of_neg (by simp [hover]), List.filter_nil,
      List.append_nil]
    exact h.confirmed
  · show a.failed ++ _ = _
    rw [hfailed, List.append_assoc]
  · rw [hdone, List.filter_append, List.filter_cons_of_pos hover, List.filter_nil,
      firstNew_append]
    rw [hknown]
    exact List.rel_append hrecords (oversized_recordLines batchId _)
  · show d.answered + 1 + 1 ≤ 2 * (d.finished + 1)
      + (advanceSplitSegments 1 s.daemon.splitSegments).length
    rcases h.requests with hnone | hrequests <;> omega

/-- A batch that does not fit leaves its halves. -/
theorem Progress.halve {batch : List Event} (h : Progress clock limit b s a d)
    (hcount : 2 ≤ batch.length)
    (hloop : LoopInv (⟨ob, w, settledFields s.daemon batch.length quarantined (some .split), none,
        s.acknowledged⟩ : SendLoop J) a) :
    Progress clock limit b ⟨ob, w, settledFields s.daemon batch.length quarantined (some .split),
      none, s.acknowledged⟩ a (d.finish 0) := by
  have hone : batch.length ≠ 1 := by omega
  have hfields : settledFields s.daemon batch.length quarantined (some .split)
      = { s.daemon with
          splitSegments := splitCurrentBatch s.daemon.splitSegments batch.length
          stats := { s.daemon.stats with sendAttempts := s.daemon.stats.sendAttempts + 1 } } := by
    simp only [settledFields, Option.elim_some, SenderDaemon.decided, if_neg hone]
  rw [hfields] at hloop ⊢
  refine ⟨hloop, h.pending, h.finished_le, h.confirmed, h.quarantined, h.running, rfl,
    congrArg (· + 1) h.counted, .inr ?_⟩
  have hlt := length_lt_split s.daemon.splitSegments hcount
  have htwo := length_splitCurrentBatch s.daemon.splitSegments hcount
  show d.answered + 1 + 1 ≤ 2 * d.finished
    + (splitCurrentBatch s.daemon.splitSegments batch.length).length
  rcases h.requests with hnone | hrequests <;> omega

/-- A batch that fits is confirmed, and so does each of its events. -/
theorem Progress.deliver {batch : List Event} {batchId : JsString} {response : BatchResponse}
    (h : Progress clock limit b s a d) (hbatch : batch <+: d.left) (hcount : 0 < batch.length)
    (hfits : ∀ e ∈ batch, Oversized J limit e = false) (hrejected : response.rejected = [])
    (hsegments : s.daemon.splitSegments.length
      ≤ (advanceSplitSegments batch.length s.daemon.splitSegments).length + 1)
    (hloop : LoopInv (⟨ob, w, settledFields s.daemon batch.length quarantined
        (some (.confirm response)), none, s.acknowledged ++ batch.map Event.value⟩ : SendLoop J)
      (handled a clock (handlingOf batchId batch (some (.confirm response))))) :
    Progress clock limit b ⟨ob, w, settledFields s.daemon batch.length quarantined
        (some (.confirm response)), none, s.acknowledged ++ batch.map Event.value⟩
      (handled a clock (handlingOf batchId batch (some (.confirm response))))
      (d.finish batch.length) := by
  obtain ⟨new, hfailed, hrecords⟩ := h.quarantined
  have hdone := done_finish hbatch
  -- nothing of the batch is given up, and nothing of it is too large
  have hgiven : (handlingOf batchId batch (some (.confirm response))).given = [] := by
    rw [handlingOf, Option.elim_some, handling, rejectedOf, hrejected]
    rfl
  have hnone : batch.filter (fun e => Oversized J limit e) = [] :=
    List.filter_eq_nil_iff.mpr fun e he => by simp [hfits e he]
  have hall : batch.filter (fun e => !Oversized J limit e) = batch :=
    List.filter_eq_self.mpr fun e he => by simp [hfits e he]
  refine ⟨hloop, ?_, finish_le hbatch h.finished_le, ?_, ⟨new, ?_, ?_⟩, h.running, rfl,
    congrArg (· + 1) h.counted, .inr ?_⟩
  · rw [left_finish, ← h.pending]
    rfl
  · rw [hdone, List.filter_append, hall, List.map_append, ← h.confirmed]
  · show a.failed ++ givenUp a clock _ = _
    rw [givenUp, hgiven, hfailed]
    simp [newRecords, recordLines]
  · rw [hdone, List.filter_append, hnone, List.append_nil]
    exact hrecords
  · show d.answered + 1 + 1 ≤ 2 * (d.finished + batch.length)
      + (advanceSplitSegments batch.length s.daemon.splitSegments).length
    rcases h.requests with hzero | hrequests <;> omega

end Finish

theorem progress_answer {request : Request J} {reply : Reply} {plan : List Fate}
    (h : Progress clock limit b s a d) (hrequest : s.inFlight = some request)
    (hreply : SizeVerdict limit request reply) (hplan : Uninterrupted plan) :
    ∃ s' : SendLoop J, ∃ a' : Ledger J, ∃ count,
      loopStep clock (.answer (some reply), plan) s = some s' ∧
        Progress clock limit b s' a' (d.finish count) := by
  obtain ⟨batch, hprefix, hbatch, hhead, ob, w, hstep, hloop⟩ :=
    answer_step clock h.loop hrequest (some reply) hplan
  have hsegments := length_le_advance hhead
  have hleft : batch <+: d.left := h.pending ▸ hprefix
  -- a 413 for a body over the limit, else a 200 for all of it
  rcases decision_of_sizeVerdict hbatch hreply with
    ⟨hlimit, haction, hconfirmed⟩ | ⟨hlimit, response, hrejected, haction, hconfirmed⟩
  · rw [haction, hconfirmed, List.append_nil] at hloop hstep
    by_cases hone : batch.length = 1
    · obtain ⟨e, rfl⟩ := List.length_eq_one_iff.mp hone
      have hover : Oversized J limit e = true := by
        rw [hbatch] at hlimit
        exact decide_eq_true hlimit
      exact ⟨_, _, 1, hstep, h.giveUp hleft hover hsegments hloop⟩
    · -- more than one event: nothing is handled, the head segment splits
      have hcount : 2 ≤ batch.length := by
        have := hhead.pos
        omega
      have hhandling : handlingOf request.batchId batch (some .split) = .none request.batchId := by
        rw [handlingOf, Option.elim_some, handling, if_neg hone]
      rw [hhandling] at hstep hloop
      rw [handled_none] at hloop
      exact ⟨_, a, 0, hstep, h.halve hcount hloop⟩
  · have hfits : ∀ e ∈ batch, Oversized J limit e = false := by
      intro e he
      have hmem : e.value ∈ request.batch := hbatch ▸ List.mem_map_of_mem he
      have hle := batchBodyByteLength_singleton_le (J := J) hmem
      exact decide_eq_false (by omega)
    rw [haction, hconfirmed, hbatch] at hloop hstep
    exact ⟨_, _, batch.length, hstep,
      h.deliver hleft hhead.pos hfits hrejected hsegments hloop⟩

/-! ### Every run -/

theorem Backlog.progress (b : Backlog J) :
    Progress clock limit b b.start b.ledger ⟨b.ledger.pending, 0, 0, false⟩ where
  loop := b.loopInv
  pending := rfl
  finished_le := Nat.zero_le _
  confirmed := rfl
  quarantined := ⟨[], by simp, by simp [Delivery.done]⟩
  running := rfl
  underway := rfl
  counted := rfl
  requests := .inl rfl

theorem progress_append {plan : List Fate} (h : Progress clock limit b s a d) (es : List Event)
    (hplan : Uninterrupted plan) :
    ∃ s' : SendLoop J, ∃ a' : Ledger J, loopStep clock (.append es, plan) s = some s' ∧
      Progress clock limit b s' a' { d with recorded := d.recorded ++ es } := by
  obtain ⟨ob, w, hstep, hloop⟩ := append_step clock h.loop es hplan
  have hfinished := h.finished_le
  have hdone : Delivery.done { d with recorded := d.recorded ++ es } = d.done :=
    List.take_append_of_le_length hfinished
  refine ⟨_, _, hstep, hloop, ?_, ?_, ?_, ?_, h.running, h.underway, h.counted,
    h.requests⟩
  · show a.pending ++ es = (d.recorded ++ es).drop d.finished
    rw [h.pending, List.drop_append_of_le_length hfinished]
    rfl
  · show d.finished ≤ (d.recorded ++ es).length
    rw [List.length_append]
    omega
  · rw [hdone]
    exact h.confirmed
  · rw [hdone]
    exact h.quarantined

theorem send_eq (s : SendLoop J) (stamp : Stamp J) :
    (s.send stamp).acknowledged = s.acknowledged ∧ (s.send stamp).daemon = s.daemon := by
  rw [SendLoop.send]
  split_ifs <;> exact ⟨rfl, rfl⟩

theorem progress_send (h : Progress clock limit b s a d) (stamp : Stamp J) :
    Progress clock limit b (s.send stamp) a
      { d with underway := (s.send stamp).inFlight.isSome } := by
  obtain ⟨hacknowledged, hdaemon⟩ := send_eq s stamp
  exact ⟨send_step h.loop stamp, h.pending, h.finished_le, hacknowledged ▸ h.confirmed,
    h.quarantined, hdaemon ▸ h.running, rfl, hdaemon ▸ h.counted, hdaemon ▸ h.requests⟩

/-- **Bisection.** From any backlog, while events are appended at any time: whatever the
answers are, the split plan consists of non-empty segments at the head of the queue, and the
next batch lies within the first of them. Under a receiver that answers 413 exactly to bodies
over a limit and otherwise acknowledges the batch, the events that are done came in the order
of their recording; exactly those whose own request is over the limit went to the failed
journal, every other one was confirmed once, and `N` events take at most `2 * N - 1`
requests. -/
theorem bisection (b : Backlog J) (clock : Json → JsString)
    (inputs : List (LoopAction J × List Fate)) :
    Along (sendLoop clock anyAnswer) (fun _ _ _ _ _ => True) (fun s (_ : Unit) => PlanFits s)
      inputs (some b.start) () ∧
    ∀ limit, Along (sendLoop clock (sizedAnswer limit)) DeliveryEffect
      (fun s d => ∃ s', s = some s' ∧ Delivered clock limit b s' d) inputs (some b.start)
      ⟨b.ledger.pending, 0, 0, false⟩ := by
  refine ⟨?_, fun limit => ?_⟩
  · refine along_of_invariant (fun s (_ : Unit) => ∃ s' : SendLoop J, ∃ a : Ledger J,
      s = some s' ∧ LoopInv s' a) ?_ ?_ ⟨_, _, rfl, b.loopInv⟩
    · rintro s - ⟨s', a, rfl, h⟩
      exact h.planFits
    · rintro input s - ⟨s', a, rfl, h⟩ ⟨hplan, -⟩
      obtain ⟨s'', a', hstep, h'⟩ := loopInv_step clock h hplan
      exact ⟨(), trivial, s'', a', hstep, h'⟩
  · refine along_of_invariant (fun s d => ∃ s' : SendLoop J, ∃ a : Ledger J,
      s = some s' ∧ Progress clock limit b s' a d) ?_ ?_ ⟨_, _, rfl, b.progress⟩
    · rintro s d ⟨s', a, rfl, h⟩
      exact ⟨s', rfl, h.delivered⟩
    · -- an append starts the count afresh; only answers to a request count
      rintro ⟨act, plan⟩ s d ⟨s', a, rfl, h⟩ ⟨hplan, hnetwork⟩
      cases act with
      | append es =>
        obtain ⟨s'', a', hstep, h'⟩ := progress_append h es hplan
        exact ⟨_, rfl, s'', a', hstep, h'⟩
      | send stamp => exact ⟨_, rfl, s'.send stamp, a, rfl, progress_send h stamp⟩
      | answer reply =>
        cases hrequest : s'.inFlight with
        | none =>
          -- an answer that nobody waits for is dropped
          have hidle : d.underway = false := by rw [h.underway, hrequest]; rfl
          refine ⟨d, ⟨rfl, le_rfl, by rw [hidle]; rfl, hidle⟩, s', a, ?_, h⟩
          show loopStep clock (.answer reply, plan) s' = some s'
          rw [loopStep, hrequest]
        | some request =>
          obtain ⟨r, rfl, hverdict⟩ := hnetwork request hrequest
          obtain ⟨s'', a', count, hstep, h'⟩ := progress_answer h hrequest hverdict hplan
          have hunderway : d.underway = true := by rw [h.underway, hrequest]; rfl
          exact ⟨d.finish count, ⟨rfl, Nat.le_add_right _ _, by rw [hunderway]; rfl, rfl⟩, s'', a',
            hstep, h'⟩

end Sender
