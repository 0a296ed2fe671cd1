/-
The send loop of one process (`SenderDaemon.sendLoop`).

Batches are taken from the head of the queue, one request at a time, while events are
appended at its tail.

* `SendLoop`, `loopStep` — the loop's state, and what an append, a request and an answer do
  to it;
* `LoopInv` — outbox, split plan and request under way fit together;
* `append_step`, `send_step`, `answer_step` — every step keeps them together, whatever the
  answer.
-/
import LogStack.FailedCache
import LogStack.RequestBody
import LogStack.SplitPlan

open FileProgram KeyedInsert Outbox Simulation

namespace Sender

/-! ### The loop -/

variable (J : JsonText) (clock : Json → JsString)

structure Request extends Stamp J where
  batch : List Json

structure SendLoop where
  outbox : Outbox
  world : World String
  daemon : SenderDaemon := {}
  /-- The request whose answer the loop waits for. -/
  inFlight : Option (Request J) := none
  /-- The events of the batches whose answer confirmed them. -/
  acknowledged : List Json := []

variable {J}

def Request.body (request : Request J) : Bytes :=
  serializeBatch J request.batchId request.sentAt request.batch

/-- The next batch. -/
def SendLoop.peekBatch (s : SendLoop J) : List Json :=
  s.outbox.peekBatch (EMPTY_BATCH_BODY_BYTES J) (currentBatchCap s.daemon.splitSegments)
    MAX_BATCH_BYTES

variable (J) in
inductive LoopAction where
  /-- The generator records events. -/
  | append (events : List Event)
  /-- A pass of the loop whose batch is ready. -/
  | send (stamp : Stamp J)
  /-- The answer to the request under way, or its failure. -/
  | answer (reply : Option Reply)

/-- A pass of the loop: nothing is sent while it waits for an answer, after the key was
refused, or without an event. -/
def SendLoop.send (stamp : Stamp J) (s : SendLoop J) : SendLoop J :=
  if s.inFlight.isSome ∨ s.daemon.authHalted then s
  else if s.peekBatch.isEmpty then s
  else { s with inFlight := some ⟨stamp, s.peekBatch⟩ }

/-- The events that an answer confirms. -/
def confirmedBy (request : Request J) (reply : Option Reply) : List Json :=
  match reply.map fun r => decideAck J r.status r.bodyText request.batchId request.batch
      r.retryAfter with
  | some (.confirm _) => request.batch
  | _ => []

/-- One step; a throw ends the process. -/
def loopStep : LoopAction J × List Fate → SendLoop J → Option (SendLoop J)
  | (.append es, plan), s =>
    match run (appendMany J (es.map Event.value)) plan s.outbox s.world with
    | .returned _ outbox world => some { s with outbox := outbox, world := world }
    | _ => none
  | (.send stamp, _), s => some (s.send stamp)
  | (.answer reply, plan), s =>
    match s.inFlight with
    | none => some s
    | some request =>
      match run (sendBatch J clock request.batchId request.batch reply s.daemon) plan s.outbox
          s.world with
      | .returned daemon outbox world =>
        some ⟨outbox, world, daemon, none, s.acknowledged ++ confirmedBy request reply⟩
      | _ => none

/-- The loop under the answers that `network` gives, with file-system calls that complete. -/
def sendLoop (network : LoopAction J → Option (SendLoop J) → Prop) :
    Machine (Option (SendLoop J)) (LoopAction J × List Fate) Unit where
  enabled i s := Uninterrupted i.2 ∧ network i.1 s
  step i s := ((), s.bind (loopStep clock i))

variable (J) in
/-- A process that has just opened its outbox. -/
structure Backlog where
  outbox : Outbox
  world : World String
  ledger : Ledger J
  tended : Tended J outbox world ledger

def Backlog.start (b : Backlog J) : SendLoop J := { outbox := b.outbox, world := b.world }

variable {clock}

/-- Every directory that a run leaves can be opened. -/
theorem exists_backlog (d : Directory J) (limit : ℕ) {plan : List Fate}
    (hplan : Uninterrupted plan) : ∃ b : Backlog J, b.ledger = d.ledger ∧
      step J (.open limit, plan) (.down d.files) = (.returned 0, .up b.outbox b.world) := by
  have hwp : wp Fate.Crash (fun r ob w => r = .ok 0 ∧ Tended J ob w d.ledger) (fun _ => True)
      (program J (.open limit)) { failedIdCacheLimit := 0 } (World.boot d.files) :=
    wp_bind (wp_open d.resting.1 d.resting.2 (fun _ _ _ => trivial) (fun _ => throws_crash)
      fun ob w gone head hconfirmed hlive hcache hclosed _ htext =>
        ⟨rfl, ⟨gone, head, hconfirmed, hlive⟩, hcache, htext, hclosed⟩)
  obtain ⟨n, ob, w, hrun, hn, htended⟩ :=
    returned_of_wp hplan hwp fun e ob w hQ => absurd hQ.1 (by simp)
  refine ⟨⟨ob, w, d.ledger, htended⟩, rfl, ?_⟩
  rw [step_eq_finish rfl]
  show finish _ (run (program J (.open limit)) plan { failedIdCacheLimit := 0 }
    (World.boot d.files)) = _
  rw [hrun, Except.ok.inj hn]
  rfl

/-! ### What every step keeps -/

structure LoopInv (s : SendLoop J) (a : Ledger J) : Prop where
  tended : Tended J s.outbox s.world a
  plan : SplitPlan s.daemon.splitSegments a.pending.length
  inFlight : ∀ request, s.inFlight = some request →
    ∃ n, request.batch = (a.pending.take n).map Event.value ∧
      InHead s.daemon.splitSegments a.pending.length n

variable {s : SendLoop J} {a : Ledger J} {plan : List Fate}

theorem Backlog.loopInv (b : Backlog J) : LoopInv b.start b.ledger where
  tended := b.tended
  plan := .nil
  inFlight := fun _ h => by cases h

/-- Recorded events wait behind the batch under way. -/
theorem LoopInv.append (h : LoopInv s a) {es : List Event} {ob : Outbox} {w : World String}
    (htended : Tended J ob w (a.append es)) :
    LoopInv { s with outbox := ob, world := w } (a.append es) := by
  have hlength : a.pending.length ≤ (a.append es).pending.length := by
    simp [Ledger.append]
  refine ⟨htended, h.plan.mono hlength, fun request hrequest => ?_⟩
  obtain ⟨n, hbatch, hhead⟩ := h.inFlight request hrequest
  refine ⟨n, ?_, hhead.mono hlength⟩
  have hn := hhead.le_pending h.plan
  rw [hbatch, show (a.append es).pending = a.pending ++ es from rfl,
    List.take_append_of_le_length hn]

variable (clock) in
theorem append_step (h : LoopInv s a) (es : List Event) (hplan : Uninterrupted plan) :
    ∃ ob w, loopStep clock (.append es, plan) s = some { s with outbox := ob, world := w } ∧
      LoopInv { s with outbox := ob, world := w } (a.append es) := by
  have hwp : wp Fate.Crash (fun r ob w => r = .ok () ∧ Tended J ob w (a.append es))
      (fun _ => True) (appendMany J (es.map Event.value)) s.outbox s.world :=
    wp_append h.tended (fun _ _ _ => trivial) fun ob w htended => ⟨rfl, htended⟩
  obtain ⟨_, ob, w, hrun, -, htended⟩ :=
    returned_of_wp hplan hwp fun e ob w hQ => absurd hQ.1 (by simp)
  exact ⟨ob, w, by rw [loopStep, hrun], h.append htended⟩

/-- The next batch lies within the first segment of the plan. -/
theorem peekBatch_inHead (h : LoopInv s a) : ∃ n, (a.pending ≠ [] → 0 < n) ∧
    n ≤ s.daemon.splitSegments.headD a.pending.length ∧
    s.peekBatch = (a.pending.take n).map Event.value := by
  have hcap : 0 < currentBatchCap s.daemon.splitSegments := by
    cases hsegments : s.daemon.splitSegments with
    | nil => exact Nat.succ_pos 499
    | cons size rest => exact h.plan.pos size (hsegments ▸ List.mem_cons_self)
  obtain ⟨n, hn, hcount, hpos, hpeek⟩ :=
    peekBatch_spec s.outbox (EMPTY_BATCH_BODY_BYTES J) MAX_BATCH_BYTES hcap
  rw [h.tended.pendingCount] at hn
  rw [h.tended.pending_eq] at hpos hpeek
  refine ⟨n, fun hne => hpos (by simpa using hne), ?_, ?_⟩
  · cases hsegments : s.daemon.splitSegments with
    | nil => exact hn
    | cons size rest =>
      rw [hsegments] at hcount
      exact hcount
  · rw [SendLoop.peekBatch, hpeek, ← List.map_take, List.map_map]
    rfl

theorem send_step (h : LoopInv s a) (stamp : Stamp J) : LoopInv (s.send stamp) a := by
  obtain ⟨n, hpos, hn, hpeek⟩ := peekBatch_inHead h
  rw [SendLoop.send]
  split_ifs with hwait hempty
  · exact h
  · exact h
  · refine ⟨h.tended, h.plan, fun request hrequest => ⟨n, ?_, ?_, hn⟩⟩
    · rw [← Option.some.inj hrequest]
      exact hpeek
    · refine hpos fun hnil => hempty ?_
      rw [hpeek, hnil, List.take_nil]
      rfl

/-! ### Answers -/

/-- What a decision leaves of the plan. -/
theorem SplitPlan.settled {d : SenderDaemon} {batch : List Event} {pendingCount : ℕ}
    (hplan : SplitPlan d.splitSegments pendingCount)
    (hhead : InHead d.splitSegments pendingCount batch.length) (batchId : JsString)
    (quarantined : ℕ) (action : Option AckAction) :
    SplitPlan (settledFields d batch.length quarantined action).splitSegments
      (pendingCount - (handlingOf batchId batch action).count) := by
  cases action with
  | none => exact hplan
  | some action =>
    cases action with
    | confirm response => exact hplan.advance hhead
    | quarantineBatch => exact hplan.advance hhead
    | split =>
      by_cases hone : batch.length = 1
      · have hadvance := hplan.advance hhead
        simp only [hone] at hadvance
        simpa [settledFields, SenderDaemon.decided, SenderDaemon.advance, handlingOf, handling,
          hone] using hadvance
      · simpa [settledFields, SenderDaemon.decided, handlingOf, handling, hone, Handling.none]
          using hplan.split hhead
    | resend reason => exact hplan
    | halt status => exact hplan
    | rateLimited seconds => exact hplan
    | backoff status => exact hplan

/-- A decision leaves no segment that is too long. -/
theorem Capped.settled {d : SenderDaemon} {count quarantined : ℕ} (h : Capped d.splitSegments)
    (hcount : count ≤ MAX_EVENTS_PER_BATCH) (action : Option AckAction) :
    Capped (settledFields d count quarantined action).splitSegments := by
  cases action with
  | none => exact h
  | some action =>
    cases action with
    | confirm response => exact h.advance count
    | quarantineBatch => exact h.advance count
    | split =>
      simp only [settledFields, Option.elim_some, SenderDaemon.decided]
      split_ifs
      · exact h.advance 1
      · exact h.split hcount
    | resend reason => exact h
    | halt status => exact h
    | rateLimited seconds => exact h
    | backoff status => exact h

/-- The batch under way is a head of the queue within the first segment. -/
theorem LoopInv.batch {request : Request J} (h : LoopInv s a)
    (hrequest : s.inFlight = some request) : ∃ batch, batch <+: a.pending ∧
      request.batch = batch.map Event.value ∧
      InHead s.daemon.splitSegments a.pending.length batch.length := by
  obtain ⟨n, hbatch, hhead⟩ := h.inFlight request hrequest
  have hlength : (a.pending.take n).length = n :=
    List.length_take_of_le (hhead.le_pending h.plan)
  exact ⟨a.pending.take n, List.take_prefix _ _, hbatch, hlength.symm ▸ hhead⟩

/-- Settling the batch under way. -/
theorem LoopInv.settle {request : Request J} {batch : List Event} {action : Option AckAction}
    {ob : Outbox} {w : World String} {quarantined : ℕ} {acknowledged : List Json}
    (h : LoopInv s a) (hhead : InHead s.daemon.splitSegments a.pending.length batch.length)
    (htended : Tended J ob w (handled a clock (handlingOf request.batchId batch action))) :
    LoopInv ⟨ob, w, settledFields s.daemon batch.length quarantined action, none, acknowledged⟩
      (handled a clock (handlingOf request.batchId batch action)) := by
  refine ⟨htended, ?_, fun request' h' => by cases h'⟩
  have hsettled := h.plan.settled hhead request.batchId quarantined action
  have hpending : (handled a clock (handlingOf request.batchId batch action)).pending.length
      = a.pending.length - (handlingOf request.batchId batch action).count := List.length_drop
  rw [hpending]
  exact hsettled

variable (clock) in
theorem answer_step {request : Request J} (h : LoopInv s a)
    (hrequest : s.inFlight = some request) (reply : Option Reply) (hplan : Uninterrupted plan) :
    ∃ batch, batch <+: a.pending ∧ request.batch = batch.map Event.value ∧
      InHead s.daemon.splitSegments a.pending.length batch.length ∧ ∃ ob w,
      let action := decision J request.batchId batch reply
      let h := handlingOf request.batchId batch action
      let s' : SendLoop J := ⟨ob, w,
        settledFields s.daemon batch.length (givenUp a clock h).length action, none,
        s.acknowledged ++ confirmedBy request reply⟩
      loopStep clock (.answer reply, plan) s = some s' ∧ LoopInv s' (handled a clock h) := by
  obtain ⟨batch, hprefix, hbatch, hhead⟩ := h.batch hrequest
  refine ⟨batch, hprefix, hbatch, hhead, ?_⟩
  set action := decision J request.batchId batch reply with haction
  set h' := handlingOf request.batchId batch action with hh
  have hwp : wp Fate.Crash (fun r ob w =>
      r = .ok (settledFields s.daemon batch.length (givenUp a clock h').length action) ∧
        Tended J ob w (handled a clock h'))
      (fun _ => True) (sendBatch J clock request.batchId request.batch reply s.daemon)
      s.outbox s.world := by
    rw [hbatch]
    exact wp_sendBatch h.tended hprefix.length_le (fun _ _ _ _ => trivial)
      fun ob w htended => ⟨rfl, htended⟩
  obtain ⟨d, ob, w, hrun, hd, htended⟩ :=
    returned_of_wp hplan hwp fun e ob w hQ => absurd hQ.1 (by simp)
  obtain rfl := Except.ok.inj hd
  refine ⟨ob, w, ?_, h.settle hhead htended⟩
  rw [loopStep, hrequest]
  simp only [hrun]
  rfl

end Sender
