/-
The queue that a process of the sender works on.

* `TimedQueue` — recorded events, how many of them are dealt with, and since when the first of
  the others has been first;
* `Keeps`, `Keeps.step` — every step of the process is a step of the queue;
* `process_accounts` — the counters account for every event;
* `batch_window` — when a batch is sent.
-/
import LogStack.AckAgreement
import LogStack.SenderProcess

open FileProgram KeyedInsert Outbox Simulation

namespace Sender

variable {J : JsonText} (clock : Json → JsString)

/-! ### What the process works on -/

/-- Recorded events, how many of them are dealt with, and since when the first of the others
has been first. -/
structure TimedQueue where
  recorded : List Event
  finished : ℕ
  headSince : ℚ

namespace TimedQueue

def pending (q : TimedQueue) : List Event := q.recorded.drop q.finished

def record (time : ℚ) (events : List Event) (q : TimedQueue) : TimedQueue :=
  { q with
    recorded := q.recorded ++ events
    headSince := if q.pending = [] then time else q.headSince }

def finish (time : ℚ) (count : ℕ) (q : TimedQueue) : TimedQueue :=
  { q with finished := q.finished + count, headSince := time }

end TimedQueue

/-- What a step does to the queue. -/
def QueueEffect (i : Input J × List Fate) (_ : Unit) (_ : Option (SenderProcess J))
    (q q' : TimedQueue) : Prop :=
  match i.1 with
  | .tick time events => q' = q ∨ events ≠ [] ∧
      q.pending.length < BACKPRESSURE_PENDING_LIMIT ∧ q' = q.record time events
  | .wake _ _ => q' = q
  | .answer time _ _ => q' = q ∨
      ∃ count, 0 < count ∧ count ≤ q.pending.length ∧ q' = q.finish time count
  | .stop _ => q' = q

/-- The events of a request that were refused: they went to the failed journal. -/
def Trip.refused (trip : Trip) : ℕ :=
  match trip.action with
  | some (.confirm response) => response.rejected.length
  | some .quarantineBatch => trip.count
  | some .split => if trip.count = 1 then 1 else 0
  | _ => 0

/-- What the requests that are over add up to. -/
def total (f : Trip → ℕ) (passes : List Pass) : ℕ := ((passes.filterMap Pass.trip).map f).sum

def refused (passes : List Pass) : ℕ := total Trip.refused passes

/-- What a confirmed response counts, and nothing for any other answer. -/
def Trip.confirmed (count : BatchResponse → ℕ) (trip : Trip) : ℕ :=
  match trip.action with
  | some (.confirm response) => count response
  | _ => 0

/-- No answer, an answer for something else, or a server error. -/
def Trip.retried (trip : Trip) : ℕ :=
  match trip.action with
  | none => 1
  | some (.resend _) => 1
  | some (.backoff _) => 1
  | _ => 0

def Trip.limited (trip : Trip) : ℕ :=
  match trip.action with
  | some (.rateLimited _) => 1
  | _ => 0

/-- The counters are those of the requests that are over, and `records` events have been
quarantined: of the refused events, those without a record. -/
structure Tallies (records : ℕ) (passes : List Pass) (stats : DaemonStats) : Prop where
  sendAttempts : stats.sendAttempts = total (fun _ => 1) passes
  sentBatches : stats.sentBatches = total (Trip.confirmed fun _ => 1) passes
  stored : stats.stored = total (Trip.confirmed BatchResponse.storedCount) passes
  duplicate : stats.duplicate = total (Trip.confirmed BatchResponse.duplicateCount) passes
  orderDuplicate :
    stats.orderDuplicate = total (Trip.confirmed BatchResponse.orderDuplicateCount) passes
  quarantined : stats.quarantined = records
  quarantined_le : stats.quarantined ≤ refused passes
  retries : stats.retries = total Trip.retried passes
  rateLimitedWaits : stats.rateLimitedWaits = total Trip.limited passes

/-- The beginning of the second that a batch waits for more events; what was pending at the
start does not wait. -/
def windowStart (remaining : ℕ) (q : TimedQueue) : Option ℚ :=
  if q.pending = [] then none else some (if 0 < remaining then 0 else q.headSince)

variable {b : Backlog J} {tickSize : ℕ} {p : SenderProcess J} {q : TimedQueue}

/-- What the loop holds: `pending` in its outbox, and in the failed journal `records` after those
of the start, as its counters say. -/
structure Books (b : Backlog J) (s : SendLoop J) (pending : List Event) (passes : List Pass)
    (a : Ledger J) (records : List (FailedLine J)) : Prop where
  loop : LoopInv s a
  pending : a.pending = pending
  failed : a.failed = b.ledger.failed ++ records
  tallies : Tallies records.length passes s.daemon.stats

/-- The process works on the queue, and its counters are about the queue. -/
structure Keeps (b : Backlog J) (tickSize : ℕ) (p : SenderProcess J) (q : TimedQueue) :
    Prop where
  ledger : ∃ a records, Books b p.loop q.pending p.passes a records
  underway : p.acquiredAt.isSome = p.loop.inFlight.isSome
  finished_le : q.finished ≤ q.recorded.length
  backlog : p.startupBacklog = b.ledger.pending.length
  recorded : ∃ events, q.recorded = b.ledger.pending ++ events ∧ events.length = p.generated
  attempted : p.generationAttempted = p.generated
  remaining : p.startupDrainRemaining = p.startupBacklog - q.finished
  drained : p.startupDrainBatchCounts.sum + p.startupDrainRemaining = p.startupBacklog
  drained_pos : ∀ count ∈ p.startupDrainBatchCounts, 0 < count
  pending_le : q.pending.length ≤ p.maxPending
  maxPending_le : p.maxPending ≤
    max p.startupBacklog (BACKPRESSURE_PENDING_LIMIT - 1 + tickSize)
  window : p.batchStartedAt = windowStart p.startupDrainRemaining q
  headSince_le : q.headSince ≤ p.now
  settled : q.finished = p.loop.daemon.stats.stored + p.loop.daemon.stats.duplicate +
    refused p.passes

theorem total_waiting (f : Trip → ℕ) (passes : List Pass) (time wait : ℚ) :
    total f (passes ++ [⟨time, wait, none⟩]) = total f passes := by
  rw [total, List.filterMap_append, List.filterMap_cons_none rfl, List.filterMap_nil,
    List.append_nil, total]

theorem total_answered (f : Trip → ℕ) (passes : List Pass) (time wait : ℚ) (trip : Trip) :
    total f (passes ++ [⟨time, wait, some trip⟩]) = total f passes + f trip := by
  have htrip : List.filterMap Pass.trip [⟨time, wait, some trip⟩] = [trip] := rfl
  rw [total, List.filterMap_append, htrip, List.map_append, List.sum_append,
    List.map_singleton, List.sum_singleton, total]

theorem Tallies.congr {records : ℕ} {passes passes' : List Pass} {stats : DaemonStats}
    (h : Tallies records passes stats) (hsame : ∀ f, total f passes' = total f passes) :
    Tallies records passes' stats := by
  obtain ⟨h₁, h₂, h₃, h₄, h₅, h₆, h₇, h₈, h₉⟩ := h
  rw [refused] at h₇
  simp only [← hsame] at h₁ h₂ h₃ h₄ h₅ h₇ h₈ h₉
  exact ⟨h₁, h₂, h₃, h₄, h₅, h₆, h₇, h₈, h₉⟩

theorem Keeps.pendingCount (h : Keeps b tickSize p q) : p.pendingCount = q.pending.length := by
  obtain ⟨a, records, hbooks⟩ := h.ledger
  rw [SenderProcess.pendingCount, hbooks.loop.tended.pendingCount, hbooks.pending]

theorem Keeps.peekBatch_eq_nil (h : Keeps b tickSize p q) :
    p.loop.peekBatch = [] ↔ q.pending = [] := by
  obtain ⟨a, records, hbooks⟩ := h.ledger
  obtain ⟨n, hpos, -, hpeek⟩ := peekBatch_inHead hbooks.loop
  rw [← hbooks.pending, hpeek, List.map_eq_nil_iff, List.take_eq_nil_iff]
  refine ⟨fun hnil => hnil.elim (fun hn => ?_) id, .inr⟩
  by_contra hne
  exact absurd (hpos hne) (by omega)

/-! ### One answer -/

/-- The head of the backlog is done first. -/
theorem SenderProcess.noteStartupDrainProgress_eq (p : SenderProcess J) (count : ℕ) :
    p.noteStartupDrainProgress count = { p with
      startupDrainRemaining := p.startupDrainRemaining - count
      startupDrainBatchCounts := p.startupDrainBatchCounts ++
        if p.startupDrainRemaining = 0 then [] else [min count p.startupDrainRemaining] } := by
  have hmin : p.startupDrainRemaining - min count p.startupDrainRemaining
      = p.startupDrainRemaining - count := by omega
  rw [SenderProcess.noteStartupDrainProgress]
  by_cases hremaining : p.startupDrainRemaining = 0
  · have hzero : p.startupDrainRemaining - count = p.startupDrainRemaining := by omega
    rw [if_pos hremaining, if_pos hremaining, List.append_nil, hzero]
  · rw [if_neg hremaining, if_neg hremaining, ← hmin]

theorem SenderProcess.resetBatchWindowAfterProgress_eq (p : SenderProcess J) (time : ℚ) :
    p.resetBatchWindowAfterProgress time = { p with
      batchStartedAt := if p.pendingCount = 0 then none
        else some (if 0 < p.startupDrainRemaining then 0 else time) } := by
  rw [SenderProcess.resetBatchWindowAfterProgress]
  by_cases hpending : p.pendingCount = 0
  · rw [if_pos hpending, if_pos hpending]
  · rw [if_neg hpending, if_neg hpending]
    split_ifs <;> rfl

theorem SenderProcess.progress_some (p : SenderProcess J) (time : ℚ) (count : ℕ) :
    p.progress time (some count) = { p with
      startupDrainRemaining := p.startupDrainRemaining - count
      startupDrainBatchCounts := p.startupDrainBatchCounts ++
        if p.startupDrainRemaining = 0 then [] else [min count p.startupDrainRemaining]
      batchStartedAt := if p.pendingCount = 0 then none
        else some (if 0 < p.startupDrainRemaining - count then 0 else time) } := by
  rw [SenderProcess.progress, SenderProcess.noteStartupDrainProgress_eq,
    SenderProcess.resetBatchWindowAfterProgress_eq]
  rfl

theorem progressOf_pos {count n : ℕ} {action : Option AckAction}
    (h : progressOf count action = some n) (hcount : 0 < count) : 0 < n ∧ n ≤ count := by
  cases action with
  | none => cases h
  | some action =>
    cases action with
    | confirm response => exact Option.some.inj h ▸ ⟨hcount, le_rfl⟩
    | quarantineBatch => exact Option.some.inj h ▸ ⟨hcount, le_rfl⟩
    | split =>
      rw [progressOf] at h
      split_ifs at h
      exact Option.some.inj h ▸ ⟨Nat.one_pos, hcount⟩
    | _ => cases h

/-- A decision deals with a head of the queue. -/
theorem count_handlingOf (batchId : JsString) (batch : List Event) (action : Option AckAction) :
    (handlingOf batchId batch action).count = (progressOf batch.length action).getD 0 := by
  cases action with
  | none => rfl
  | some action =>
    cases action with
    | split =>
      rw [handlingOf, progressOf, Option.elim_some, handling]
      split_ifs <;> rfl
    | _ => rfl

/-- What is stored, was there before or is refused is dealt with. -/
theorem Trip.dealtWith {trip : Trip}
    (htrusted : ∀ response, trip.action = some (.confirm response) → Trusted trip.count response) :
    trip.confirmed BatchResponse.storedCount + trip.confirmed BatchResponse.duplicateCount +
      trip.refused = (progressOf trip.count trip.action).getD 0 := by
  obtain ⟨answeredAt, count, action, delay⟩ := trip
  cases action with
  | none => rfl
  | some action =>
    cases action with
    | confirm response =>
      have h : Trusted count response := htrusted response rfl
      have hresolved := h.resolved
      have hle := h.rejectedCount_le
      have hlength := h.rejectedCount
      show response.storedCount + response.duplicateCount + response.rejected.length = count
      omega
    | split =>
      simp only [Trip.confirmed, Trip.refused, progressOf]
      split_ifs <;> rfl
    | quarantineBatch => exact Nat.zero_add _
    | _ => rfl

section Answer

variable {s : SendLoop J} {a : Ledger J} {request : Request J} {plan : List Fate}

theorem Request.trusted {reply : Option Reply} {response : BatchResponse}
    (h : request.action reply = some (.confirm response)) :
    Trusted request.batch.length response := by
  obtain ⟨r, -, hr⟩ := Option.map_eq_some_iff.mp h
  have hsound := sound_decideAck J (fun _ => []) request.batchId request.batch r
  rw [hr] at hsound
  exact hsound.1

/-- The events that a decision gives up were refused. -/
theorem length_given_le (batchId : JsString) (batch : List Event) (trip : Trip)
    (hcount : trip.count = batch.length) :
    (handlingOf batchId batch trip.action).given.length ≤ trip.refused := by
  obtain ⟨answeredAt, count, action, delay⟩ := trip
  obtain rfl : count = batch.length := hcount
  cases action with
  | none => exact le_rfl
  | some action =>
    cases action with
    | confirm response =>
      exact (List.length_filterMap_le _ _).trans (List.length_filter_le _ _)
    | split =>
      rw [handlingOf, Option.elim_some, handling, Trip.refused]
      split_ifs with hone
      · exact hone.le
      · exact le_rfl
    | _ => exact le_rfl

/-- The loop after an answer: the events that are dealt with are gone, and those that are given
up have their records. -/
structure Answered (s s' : SendLoop J) (a : Ledger J) (request : Request J) (trip : Trip) :
    Prop where
  ledger : ∃ a' records, LoopInv s' a' ∧
    a'.pending = a.pending.drop ((progressOf request.batch.length trip.action).getD 0) ∧
    a'.failed = a.failed ++ records ∧ records.length ≤ trip.refused ∧
    s'.daemon = settledFields s.daemon request.batch.length records.length trip.action
  idle : s'.inFlight = none

theorem answered (h : LoopInv s a) (hrequest : s.inFlight = some request) (reply : Option Reply)
    (hplan : Uninterrupted plan) (trip : Trip) (haction : trip.action = request.action reply)
    (hcount : trip.count = request.batch.length) :
    ∃ s', loopStep clock (.answer reply, plan) s = some s' ∧ Answered s s' a request trip ∧
      0 < request.batch.length ∧ request.batch.length ≤ a.pending.length := by
  obtain ⟨batch, hprefix, hbatch, hhead, ob, w, hstep, hloop⟩ :=
    answer_step clock h hrequest reply hplan
  have hlength : request.batch.length = batch.length := by rw [hbatch, List.length_map]
  have hdecision : decision J request.batchId batch reply = trip.action := by
    rw [haction, decision, Request.action, hbatch]
  rw [hdecision] at hstep hloop
  set given := handlingOf request.batchId batch trip.action with hgiven
  refine ⟨_, hstep, ⟨⟨_, givenUp a clock given, hloop, ?_, rfl, ?_, by rw [hlength]⟩, rfl⟩,
    ?_, ?_⟩
  · show a.pending.drop given.count = _
    rw [hgiven, count_handlingOf, hlength]
  · exact (length_givenUp_le given).trans
      (length_given_le request.batchId batch trip (hcount.trans hlength))
  · rw [hlength]
    exact hhead.pos
  · rw [hlength]
    exact hprefix.length_le

/-- What an answer adds to the counters. -/
theorem stats_settledFields {new : ℕ} {trip : Trip} (hnew : new ≤ trip.refused)
    (d : SenderDaemon) : (settledFields d trip.count new trip.action).stats = {
      sendAttempts := d.stats.sendAttempts + 1
      sentBatches := d.stats.sentBatches + trip.confirmed fun _ => 1
      stored := d.stats.stored + trip.confirmed BatchResponse.storedCount
      duplicate := d.stats.duplicate + trip.confirmed BatchResponse.duplicateCount
      orderDuplicate := d.stats.orderDuplicate + trip.confirmed BatchResponse.orderDuplicateCount
      quarantined := d.stats.quarantined + new
      retries := d.stats.retries + trip.retried
      rateLimitedWaits := d.stats.rateLimitedWaits + trip.limited } := by
  obtain ⟨answeredAt, count, action, delay⟩ := trip
  have hzero : Trip.refused ⟨answeredAt, count, action, delay⟩ = 0 → new = 0 := fun h => by omega
  cases action with
  | none => rw [hzero rfl]; rfl
  | some action =>
    cases action with
    | confirm response => rfl
    | quarantineBatch => rfl
    | split =>
      by_cases hone : count = 1
      · subst hone
        rfl
      · rw [hzero (if_neg hone)]
        simp only [settledFields, Option.elim_some, SenderDaemon.decided, if_neg hone]
        rfl
    | resend reason => rw [hzero rfl]; rfl
    | halt status => rw [hzero rfl]; rfl
    | rateLimited seconds => rw [hzero rfl]; rfl
    | backoff status => rw [hzero rfl]; rfl

/-- The counters after one more answer. -/
theorem Tallies.answered {records new : ℕ} {passes : List Pass} {d : SenderDaemon}
    (h : Tallies records passes d.stats) {trip : Trip} (hnew : new ≤ trip.refused) (time wait : ℚ) :
    Tallies (records + new) (passes ++ [⟨time, wait, some trip⟩])
      (settledFields d trip.count new trip.action).stats := by
  have hquarantined := h.quarantined
  have hle := h.quarantined_le
  rw [refused] at hle
  rw [stats_settledFields hnew]
  constructor
  case quarantined => exact congrArg (· + new) hquarantined
  case quarantined_le =>
    rw [refused, total_answered]
    exact Nat.add_le_add hle hnew
  case sendAttempts => rw [total_answered, ← h.sendAttempts]
  case sentBatches => rw [total_answered, ← h.sentBatches]
  case stored => rw [total_answered, ← h.stored]
  case duplicate => rw [total_answered, ← h.duplicate]
  case orderDuplicate => rw [total_answered, ← h.orderDuplicate]
  case retries => rw [total_answered, ← h.retries]
  case rateLimitedWaits => rw [total_answered, ← h.rateLimitedWaits]

end Answer

/-! ### Every step -/

namespace Keeps

/-- The clock moves on. -/
theorem later (h : Keeps b tickSize p q) {time : ℚ} (htime : p.now ≤ time) :
    Keeps b tickSize (p.reads time) q :=
  { h with headSince_le := h.headSince_le.trans htime }

theorem tick (h : Keeps b tickSize p q) {time : ℚ} {events : List Event} {plan : List Fate}
    (htime : p.now ≤ time) (hplan : Uninterrupted plan) (hsize : events.length ≤ tickSize) :
    ∃ p' q', p.generateTick clock time events plan = some p' ∧
      QueueEffect (.tick time events, plan) () (some p') q q' ∧ Keeps b tickSize p' q' := by
  have hlater := h.later htime
  rw [SenderProcess.generateTick]
  split_ifs with hstopped hfull hempty
  · exact ⟨_, q, rfl, .inl rfl, hlater⟩
  · exact ⟨_, q, rfl, .inl rfl, hlater⟩
  · exact ⟨_, q, rfl, .inl rfl, hlater⟩
  · have hcount := h.pendingCount
    have hroom : q.pending.length < BACKPRESSURE_PENDING_LIMIT := by
      rw [← hcount]
      exact Nat.lt_of_not_le hfull
    -- the outbox and the queue take the events alike
    obtain ⟨a, records, hbooks⟩ := h.ledger
    obtain ⟨ob, w, hstep, hloop'⟩ := append_step clock hbooks.loop events hplan
    have hpending' : (q.record time events).pending = q.pending ++ events :=
      List.drop_append_of_le_length h.finished_le
    have hcount' : ob.pendingCount = (q.pending ++ events).length := by
      rw [hloop'.tended.pendingCount, ← hbooks.pending]
      rfl
    have hne : events ≠ [] := fun hnil => hempty (List.isEmpty_iff.mpr hnil)
    refine ⟨_, q.record time events, by rw [hstep]; rfl, .inr ⟨hne, hroom, rfl⟩, ?_⟩
    obtain ⟨es, hrecorded, hgenerated⟩ := h.recorded
    constructor
    case ledger =>
      refine ⟨_, records, hloop', ?_, hbooks.failed, hbooks.tallies⟩
      rw [hpending', ← hbooks.pending]
      rfl
    case underway => exact h.underway
    case finished_le =>
      show q.finished ≤ (q.recorded ++ events).length
      rw [List.length_append]
      exact h.finished_le.trans (Nat.le_add_right _ _)
    case backlog => exact h.backlog
    case recorded =>
      refine ⟨es ++ events, ?_, ?_⟩
      · show q.recorded ++ events = _
        rw [hrecorded, List.append_assoc]
      · show _ = p.generated + events.length
        rw [List.length_append, hgenerated]
    case attempted => exact congrArg (· + events.length) h.attempted
    case remaining => exact h.remaining
    case drained => exact h.drained
    case drained_pos => exact h.drained_pos
    case pending_le =>
      show _ ≤ max p.maxPending ob.pendingCount
      rw [hpending', hcount']
      exact le_max_right _ _
    case maxPending_le =>
      show max p.maxPending ob.pendingCount ≤ _
      rw [hcount', List.length_append]
      refine max_le h.maxPending_le (le_max_of_le_right ?_)
      omega
    case window =>
      show (if p.pendingCount = 0 then some time else p.batchStartedAt)
        = windowStart p.startupDrainRemaining (q.record time events)
      have hne' : q.pending ++ events ≠ [] := List.append_ne_nil_of_right_ne_nil _ hne
      rw [windowStart, hpending', if_neg hne', hcount]
      by_cases hnil : q.pending = []
      · -- nothing was pending: the backlog is gone, too
        have hremaining : p.startupDrainRemaining = 0 := by
          have hrecorded' := congrArg List.length hrecorded
          have hfinished := List.drop_eq_nil_iff.mp hnil
          rw [List.length_append] at hrecorded'
          rw [h.remaining, h.backlog]
          omega
        rw [if_pos (List.length_eq_zero_iff.mpr hnil), hremaining, if_neg (lt_irrefl 0)]
        simp only [TimedQueue.record, if_pos hnil]
      · rw [if_neg (fun hzero => hnil (List.length_eq_zero_iff.mp hzero)), h.window, windowStart,
          if_neg hnil]
        simp only [TimedQueue.record, if_neg hnil]
    case headSince_le =>
      show (if q.pending = [] then time else q.headSince) ≤ time
      split_ifs
      · exact le_rfl
      · exact h.headSince_le.trans htime
    case settled => exact h.settled

/-- A pass leaves the queue, the counters and the window alone. -/
theorem congr {p' : SenderProcess J} (h : Keeps b tickSize p q) {a : Ledger J}
    {records : List (FailedLine J)} (hbooks : Books b p.loop q.pending p.passes a records)
    (hloop : LoopInv p'.loop a) (hunderway : p'.acquiredAt.isSome = p'.loop.inFlight.isSome)
    (hdaemon : p'.loop.daemon = p.loop.daemon) (hwindow : p'.batchStartedAt = p.batchStartedAt)
    (hnow : p.now ≤ p'.now) (htotal : ∀ f, total f p'.passes = total f p.passes)
    (hrest : p'.startupBacklog = p.startupBacklog ∧
      p'.startupDrainRemaining = p.startupDrainRemaining ∧
      p'.startupDrainBatchCounts = p.startupDrainBatchCounts ∧
      p'.generationAttempted = p.generationAttempted ∧ p'.generated = p.generated ∧
      p'.maxPending = p.maxPending) : Keeps b tickSize p' q := by
  obtain ⟨hbacklog, hremaining, hcounts, hattempted, hgenerated, hmaxPending⟩ := hrest
  constructor
  case ledger =>
    exact ⟨a, records, hloop, hbooks.pending, hbooks.failed, hdaemon ▸ hbooks.tallies.congr htotal⟩
  case underway => exact hunderway
  case finished_le => exact h.finished_le
  case backlog => exact hbacklog.trans h.backlog
  case recorded =>
    rw [hgenerated]
    exact h.recorded
  case attempted => rw [hattempted, hgenerated, h.attempted]
  case remaining => rw [hremaining, hbacklog, h.remaining]
  case drained => rw [hcounts, hremaining, hbacklog, h.drained]
  case drained_pos =>
    rw [hcounts]
    exact h.drained_pos
  case pending_le => exact hmaxPending ▸ h.pending_le
  case maxPending_le =>
    rw [hmaxPending, hbacklog]
    exact h.maxPending_le
  case window => rw [hwindow, hremaining, h.window]
  case headSince_le => exact h.headSince_le.trans hnow
  case settled => rw [hdaemon, refused, htotal, h.settled, refused]

theorem sendOrWait (h : Keeps b tickSize p q) (limit : ℕ+) (clock : Readings) (stamp : Stamp J)
    (hidle : p.loop.inFlight = none) (hrunning : ¬p.loop.daemon.authHalted)
    (hbatch : ¬p.loop.peekBatch.isEmpty) :
    Keeps b tickSize (p.sendOrWait limit clock stamp) q := by
  obtain ⟨a, records, hbooks⟩ := h.ledger
  rw [SenderProcess.sendOrWait]
  split_ifs
  · exact h.congr hbooks hbooks.loop h.underway rfl rfl le_rfl (fun _ => total_waiting _ _ _ _)
      ⟨rfl, rfl, rfl, rfl, rfl, rfl⟩
  · have hsend : p.loop.send stamp
        = { p.loop with inFlight := some ⟨stamp, p.loop.peekBatch⟩ } := by
      rw [SendLoop.send, if_neg (by simp [hidle, hrunning]), if_neg hbatch]
    have hloop' := send_step hbooks.loop stamp
    rw [hsend] at hloop' ⊢
    exact h.congr hbooks hloop' rfl rfl rfl le_rfl (fun _ => rfl)
      ⟨rfl, rfl, rfl, rfl, rfl, rfl⟩

/-- With events in the queue, the window has a beginning. -/
theorem batchStartedAt_getD (h : Keeps b tickSize p q) (hbatch : ¬p.loop.peekBatch.isEmpty)
    (opened : ℚ) : some (p.batchStartedAt.getD opened) = p.batchStartedAt := by
  have hne : q.pending ≠ [] := fun hnil =>
    hbatch (List.isEmpty_iff.mpr (h.peekBatch_eq_nil.mpr hnil))
  rw [h.window, windowStart, if_neg hne]
  rfl

theorem pass (h : Keeps b tickSize p q) (limit : ℕ+) (clock : Readings) (stamp : Stamp J)
    (hidle : p.loop.inFlight = none) : Keeps b tickSize (p.pass limit clock stamp) q := by
  obtain ⟨a, records, hbooks⟩ := h.ledger
  rw [SenderProcess.pass]
  split_ifs with hstopped hhalted hempty hready
  · exact h.congr hbooks hbooks.loop h.underway rfl rfl le_rfl (fun _ => rfl)
      ⟨rfl, rfl, rfl, rfl, rfl, rfl⟩
  · exact h.congr hbooks hbooks.loop h.underway rfl rfl le_rfl (fun _ => rfl)
      ⟨rfl, rfl, rfl, rfl, rfl, rfl⟩
  · have hnil : q.pending = [] := h.peekBatch_eq_nil.mp (List.isEmpty_iff.mp hempty)
    have hwindow : none = p.batchStartedAt := by rw [h.window, windowStart, if_pos hnil]
    exact h.congr hbooks hbooks.loop h.underway rfl hwindow le_rfl (fun _ => rfl)
      ⟨rfl, rfl, rfl, rfl, rfl, rfl⟩
  · have hopened : Keeps b tickSize
        { p with batchStartedAt := some (p.batchStartedAt.getD clock.opened) } q :=
      h.congr hbooks hbooks.loop h.underway rfl (h.batchStartedAt_getD hempty _) le_rfl
        (fun _ => rfl) ⟨rfl, rfl, rfl, rfl, rfl, rfl⟩
    exact hopened.sendOrWait limit clock stamp hidle hhalted hempty
  · exact h.congr hbooks hbooks.loop h.underway rfl (h.batchStartedAt_getD hempty _) le_rfl
      (fun _ => rfl) ⟨rfl, rfl, rfl, rfl, rfl, rfl⟩

theorem wake (h : Keeps b tickSize p q) (limit : ℕ+) (clock : Readings) (stamp : Stamp J)
    (hnow : p.now ≤ clock.opened) : Keeps b tickSize (p.wake limit clock stamp) q := by
  rw [SenderProcess.wake]
  obtain ⟨hopened, hchecked, hacquired⟩ := clock.ordered
  have hlater := h.later (hnow.trans (hopened.trans (hchecked.trans hacquired)))
  split_ifs with hbusy hasleep
  · exact h
  · exact hlater
  · refine hlater.pass limit clock stamp ?_
    rw [not_or, Bool.not_eq_true, Option.isSome_eq_false_iff, Option.isNone_iff_eq_none] at hbusy
    exact hbusy.1

theorem stop (h : Keeps b tickSize p q) {time : ℚ} (htime : p.now ≤ time) :
    Keeps b tickSize (p.stop time) q := by
  obtain ⟨a, records, hbooks⟩ := h.ledger
  rw [SenderProcess.stop]
  split_ifs
  · exact h.later htime
  · exact h.congr hbooks hbooks.loop h.underway rfl rfl htime (fun _ => rfl)
      ⟨rfl, rfl, rfl, rfl, rfl, rfl⟩

/-- The loop has its answer, and the counters what it says. -/
theorem comeBack_books (h : Keeps b tickSize p q) {a : Ledger J} {records : List (FailedLine J)}
    (hbooks : Books b p.loop q.pending p.passes a records) {trip : Trip} {request : Request J}
    {s : SendLoop J} (hrequest : p.loop.inFlight = some request)
    (hcount : trip.count = request.batch.length)
    (htrusted : ∀ response, trip.action = some (.confirm response) → Trusted trip.count response)
    (hanswered : Answered p.loop s a request trip) :
    (∃ a' records', Books b s (q.pending.drop ((progressOf trip.count trip.action).getD 0))
      (p.comeBack trip s).passes a' records') ∧
    q.finished + (progressOf trip.count trip.action).getD 0
      = s.daemon.stats.stored + s.daemon.stats.duplicate
        + refused (p.comeBack trip s).passes := by
  -- the slot of the request is the one of the pass that now ends
  obtain ⟨time, hacquired⟩ : ∃ time, p.acquiredAt = some time :=
    Option.isSome_iff_exists.mp (by rw [h.underway, hrequest]; rfl)
  have hpasses : (p.comeBack trip s).passes = p.passes ++ [⟨time, 0, some trip⟩] := by
    rw [SenderProcess.comeBack, hacquired]
    rfl
  obtain ⟨a', new, hloop, hpending, hfailed, hnew, hdaemon⟩ := hanswered.ledger
  rw [← hcount] at hpending hdaemon
  rw [hpasses]
  constructor
  · refine ⟨a', records ++ new, hloop, by rw [hpending, hbooks.pending], ?_, ?_⟩
    · rw [hfailed, hbooks.failed, List.append_assoc]
    · rw [hdaemon, List.length_append]
      exact hbooks.tallies.answered hnew time 0
  · have hdealt := trip.dealtWith htrusted
    have hfinished := h.settled
    rw [refused] at hfinished
    rw [hdaemon, stats_settledFields hnew, refused, total_answered]
    show _ = p.loop.daemon.stats.stored + trip.confirmed BatchResponse.storedCount +
      (p.loop.daemon.stats.duplicate + trip.confirmed BatchResponse.duplicateCount) + _
    omega

/-- An answer that leaves the batch where it is. -/
theorem answer_none (h : Keeps b tickSize p q) {trip : Trip} {s : SendLoop J}
    (hledger : ∃ a records, Books b s q.pending (p.comeBack trip s).passes a records)
    (htime : p.now ≤ trip.answeredAt) (hidle : s.inFlight = none)
    (hsettled : q.finished = s.daemon.stats.stored + s.daemon.stats.duplicate
      + refused (p.comeBack trip s).passes) : Keeps b tickSize (p.comeBack trip s) q where
  ledger := hledger
  underway := by
    show false = s.inFlight.isSome
    rw [hidle]
    rfl
  finished_le := h.finished_le
  backlog := h.backlog
  recorded := h.recorded
  attempted := h.attempted
  remaining := h.remaining
  drained := h.drained
  drained_pos := h.drained_pos
  pending_le := h.pending_le
  maxPending_le := h.maxPending_le
  window := h.window
  headSince_le := h.headSince_le.trans htime
  settled := hsettled

/-- An answer that deals with `count` events. -/
theorem answer_some (h : Keeps b tickSize p q) {trip : Trip} {s : SendLoop J} {count : ℕ}
    (hledger : ∃ a records, Books b s (q.pending.drop count) (p.comeBack trip s).passes a records)
    (hidle : s.inFlight = none) (hpos : 0 < count) (hle : count ≤ q.pending.length)
    (hsettled : q.finished + count = s.daemon.stats.stored + s.daemon.stats.duplicate
      + refused (p.comeBack trip s).passes) :
    Keeps b tickSize ((p.comeBack trip s).progress trip.answeredAt (some count))
      (q.finish trip.answeredAt count) := by
  have hfinished := h.finished_le
  have hlength : q.pending.length = q.recorded.length - q.finished := List.length_drop
  have hdrop : (q.finish trip.answeredAt count).pending = q.pending.drop count :=
    List.drop_drop.symm
  rw [← hdrop] at hledger
  obtain ⟨a, records, hbooks⟩ := hledger
  have hcount' : (p.comeBack trip s).pendingCount
      = (q.finish trip.answeredAt count).pending.length := by
    rw [← hbooks.pending]
    exact hbooks.loop.tended.pendingCount
  rw [SenderProcess.progress_some, hcount']
  constructor
  case ledger => exact ⟨a, records, hbooks⟩
  case underway =>
    show false = s.inFlight.isSome
    rw [hidle]
    rfl
  case finished_le =>
    show q.finished + count ≤ q.recorded.length
    omega
  case backlog => exact h.backlog
  case recorded => exact h.recorded
  case attempted => exact h.attempted
  case remaining =>
    show p.startupDrainRemaining - count = p.startupBacklog - (q.finished + count)
    rw [h.remaining, Nat.sub_sub]
  case drained =>
    show (p.startupDrainBatchCounts ++ if p.startupDrainRemaining = 0 then []
      else [min count p.startupDrainRemaining]).sum + (p.startupDrainRemaining - count)
      = p.startupBacklog
    have hdrained := h.drained
    rw [List.sum_append]
    -- only the part that belongs to the backlog is noted
    split_ifs with hzero
    · rw [List.sum_nil, hzero, Nat.zero_sub]
      rwa [hzero] at hdrained
    · rw [List.sum_singleton]
      omega
  case drained_pos =>
    intro n hn
    rcases List.mem_append.mp hn with hn | hn
    · exact h.drained_pos n hn
    · split_ifs at hn with hzero
      · exact absurd hn List.not_mem_nil
      · rw [List.mem_singleton.mp hn]
        exact lt_min hpos (Nat.pos_of_ne_zero hzero)
  case pending_le =>
    rw [hdrop, List.length_drop]
    exact (Nat.sub_le _ _).trans h.pending_le
  case maxPending_le => exact h.maxPending_le
  case window =>
    show (if _ = 0 then none else some (if 0 < p.startupDrainRemaining - count then 0
      else trip.answeredAt)) = windowStart (p.startupDrainRemaining - count) _
    rw [windowStart]
    simp only [List.length_eq_zero_iff]
    rfl
  case headSince_le => exact le_rfl
  case settled => exact hsettled

theorem answer (h : Keeps b tickSize p q) (clock : Json → JsString) {time : ℚ}
    (reply : Option Reply) (random : ℚ) {plan : List Fate} (htime : p.now ≤ time)
    (hplan : Uninterrupted plan) :
    ∃ p' q', p.answer clock time reply random plan = some p' ∧
      QueueEffect (.answer time reply random, plan) () (some p') q q' ∧
      Keeps b tickSize p' q' := by
  rw [SenderProcess.answer]
  cases hrequest : p.loop.inFlight with
  | none => exact ⟨_, q, rfl, .inl rfl, h.later htime⟩
  | some request =>
    obtain ⟨a, records, hbooks⟩ := h.ledger
    set trip : Trip := ⟨time, request.batch.length, request.action reply,
      pauseAfter p.loop.daemon.attempt random (request.action reply)⟩ with htrip
    obtain ⟨s, hstep, hanswered, hpos, hle⟩ :=
      answered clock hbooks.loop hrequest reply hplan trip rfl rfl
    rw [hbooks.pending] at hle
    obtain ⟨hledger, hsettled⟩ :=
      h.comeBack_books hbooks hrequest rfl (fun response => request.trusted) hanswered
    simp only [hstep, Option.map_some]
    cases hprogress : progressOf request.batch.length (request.action reply) with
    | none =>
      rw [htrip] at hledger hsettled
      simp only [hprogress, Option.getD_none, List.drop_zero, Nat.add_zero] at hledger hsettled
      exact ⟨_, q, rfl, .inl rfl, h.answer_none hledger htime hanswered.idle hsettled⟩
    | some count =>
      rw [htrip] at hledger hsettled
      simp only [hprogress, Option.getD_some] at hledger hsettled
      obtain ⟨hcount, hcount_le⟩ := progressOf_pos hprogress hpos
      exact ⟨_, q.finish time count, rfl, .inr ⟨count, hcount, hcount_le.trans hle, rfl⟩,
        h.answer_some hledger hanswered.idle hcount (hcount_le.trans hle) hsettled⟩

theorem step (h : Keeps b tickSize p q) (clock : Json → JsString) (limit : ℕ+)
    {i : Input J × List Fate} (hi : Allowed tickSize i p.now) :
    ∃ p' q', SenderProcess.step clock limit i p = some p' ∧
      QueueEffect i () (some p') q q' ∧ Keeps b tickSize p' q' := by
  obtain ⟨input, plan⟩ := i
  obtain ⟨hplan, hclock, -, htick⟩ := hi
  cases input with
  | tick time events => exact h.tick clock hclock hplan (htick time events rfl)
  | wake clock' stamp => exact ⟨_, q, rfl, rfl, h.wake limit clock' stamp hclock⟩
  | answer time reply random => exact h.answer clock reply random hclock hplan
  | stop time => exact ⟨_, q, rfl, rfl, h.stop hclock⟩

end Keeps

theorem Backlog.keeps (b : Backlog J) (tickSize : ℕ) (start : ℚ) :
    Keeps b tickSize (b.process start) ⟨b.ledger.pending, 0, start⟩ := by
  have hcount : b.outbox.pendingCount = b.ledger.pending.length := b.tended.pendingCount
  constructor
  case ledger =>
    exact ⟨b.ledger, [], b.loopInv, rfl, (List.append_nil _).symm,
      ⟨rfl, rfl, rfl, rfl, rfl, rfl, le_rfl, rfl, rfl⟩⟩
  case underway => rfl
  case finished_le => exact Nat.zero_le _
  case backlog => exact hcount
  case recorded => exact ⟨[], (List.append_nil _).symm, rfl⟩
  case attempted => rfl
  case remaining => rfl
  case drained => exact Nat.zero_add _
  case drained_pos => exact fun _ h => absurd h List.not_mem_nil
  case pending_le => exact hcount.ge
  case maxPending_le => exact le_max_left _ _
  case window =>
    show (if 0 < b.outbox.pendingCount then some 0 else none)
      = windowStart b.outbox.pendingCount ⟨b.ledger.pending, 0, start⟩
    have hpending : (⟨b.ledger.pending, 0, start⟩ : TimedQueue).pending = b.ledger.pending := rfl
    rw [windowStart, hpending, hcount]
    by_cases hnil : b.ledger.pending = []
    · rw [if_pos hnil, hnil, List.length_nil, if_neg (lt_irrefl 0)]
    · have hpos : 0 < b.ledger.pending.length := List.length_pos_of_ne_nil hnil
      rw [if_neg hnil, if_pos hpos, if_pos hpos]
  case headSince_le => exact le_rfl
  case settled => rfl

/-- What every step keeps is so along every run. -/
theorem along_keeps (b : Backlog J) (clock : Json → JsString) (limit : ℕ+) (tickSize : ℕ)
    (start : ℚ) {P : SenderProcess J → TimedQueue → Prop}
    (hP : ∀ p q, Keeps b tickSize p q → P p q) (inputs : List (Input J × List Fate)) :
    Along (senderProcess clock limit tickSize) QueueEffect
      (fun s q => ∃ p, s = some p ∧ P p q) inputs (some (b.process start))
      ⟨b.ledger.pending, 0, start⟩ := by
  refine along_of_invariant (fun s q => ∃ p, s = some p ∧ Keeps b tickSize p q) ?_ ?_
    ⟨_, rfl, b.keeps tickSize start⟩
  · rintro s q ⟨p, rfl, h⟩
    exact ⟨p, rfl, hP p q h⟩
  · rintro i s q ⟨p, rfl, h⟩ hi
    obtain ⟨p', q', hstep, heffect, h'⟩ := h.step clock limit (hi p rfl)
    refine ⟨q', ?_, p', hstep, h'⟩
    show QueueEffect i () (SenderProcess.step clock limit i p) q q'
    rw [hstep]
    exact heffect

/-! ### The counters -/

/-- What the outbox and the failed journal hold, and what the counters of the process say. -/
structure Accounts (b : Backlog J) (tickSize : ℕ) (p : SenderProcess J) (q : TimedQueue) :
    Prop where
  queue : p.loop.outbox.pending = q.pending.map fun e => entryOf J e.value
  generated : ∃ events, q.recorded = b.ledger.pending ++ events ∧ events.length = p.generated ∧
    p.generationAttempted = p.generated
  /-- The backlog of the start goes first. -/
  remaining : p.startupDrainRemaining = b.ledger.pending.length - q.finished
  drained : p.startupDrainBatchCounts.sum = min q.finished b.ledger.pending.length ∧
    ∀ count ∈ p.startupDrainBatchCounts, 0 < count
  backpressure : p.pendingCount ≤ p.maxPending ∧ p.maxPending ≤
    max b.ledger.pending.length (BACKPRESSURE_PENDING_LIMIT - 1 + tickSize)
  /-- What is done was stored, was there before, or was refused. -/
  settled : q.finished = p.loop.daemon.stats.stored + p.loop.daemon.stats.duplicate +
    refused p.passes
  /-- The failed journal has the records of the start and one for each quarantined event. -/
  counters : ∃ records : List (FailedLine J),
    (p.loop.world.files failedPath).getD [] = failedText (b.ledger.failed ++ records) ∧
      Tallies records.length p.passes p.loop.daemon.stats

/-- A batch is due when it is full, when it belongs to the backlog of the start, or one second
after its first event has come to the head of the queue. -/
def Due (p : SenderProcess J) (q : TimedQueue) (time : ℚ) : Prop :=
  q.pending ≠ [] ∧
    (currentBatchCap p.loop.daemon.splitSegments ≤ p.loop.peekBatch.length ∨
      p.loop.peekBatch.length < q.pending.length ∨
      (if 0 < p.startupDrainRemaining then 0 else q.headSince) + BATCH_INTERVAL_MS ≤ time)

/-- The loop waits for nothing but the time. -/
structure Idle (p : SenderProcess J) : Prop where
  inFlight : p.loop.inFlight = none
  running : p.loop.daemon.authHalted = false
  stoppedAt : p.stoppedAt = none
  ended : p.ended = false

/-- What the throttle answers when a batch is ready. -/
def SenderProcess.throttleWait (limit : ℕ+) (clock : Readings) (p : SenderProcess J) : ℚ :=
  (FixedWindowThrottle.tryAcquire .exact (minuteThrottle limit) p.throttle clock.acquired).1

theorem SenderProcess.sendOrWait_of_slot {limit : ℕ+} {clock : Readings}
    (h : p.throttleWait limit clock = 0) (stamp : Stamp J) :
    (p.sendOrWait limit clock stamp).loop = p.loop.send stamp ∧
      (p.sendOrWait limit clock stamp).acquiredAt = some clock.acquired := by
  rw [SenderProcess.throttleWait] at h
  rw [SenderProcess.sendOrWait, if_neg (by rw [h]; exact lt_irrefl 0)]
  exact ⟨rfl, rfl⟩

theorem SenderProcess.sendOrWait_of_wait {limit : ℕ+} {clock : Readings}
    (h : 0 < p.throttleWait limit clock) (stamp : Stamp J) :
    (p.sendOrWait limit clock stamp).loop = p.loop ∧
      (p.sendOrWait limit clock stamp).deadline = clock.slept + p.throttleWait limit clock ∧
      (p.sendOrWait limit clock stamp).passes =
        p.passes ++ [⟨clock.acquired, p.throttleWait limit clock, none⟩] := by
  rw [SenderProcess.throttleWait] at h
  rw [SenderProcess.sendOrWait, if_pos h]
  exact ⟨rfl, rfl, rfl⟩

/-- The window of the next batch, and what a pass does with it: a batch that is due is sent when
the throttle answers zero, and otherwise waits as long as it says. -/
structure BatchWindow (limit : ℕ+) (p : SenderProcess J) (q : TimedQueue) : Prop where
  window : p.batchStartedAt = windowStart p.startupDrainRemaining q
  due : Idle p → ∀ (clock : Readings) (stamp : Stamp J), p.deadline ≤ clock.opened →
    Due p q clock.checked →
      (p.throttleWait limit clock = 0 → (p.wake limit clock stamp).loop =
          { p.loop with inFlight := some ⟨stamp, p.loop.peekBatch⟩ } ∧
        (p.wake limit clock stamp).acquiredAt = some clock.acquired) ∧
      (p.throttleWait limit clock ≠ 0 → 0 < p.throttleWait limit clock ∧
        (p.wake limit clock stamp).loop = p.loop ∧
        (p.wake limit clock stamp).deadline = clock.slept + p.throttleWait limit clock ∧
        (p.wake limit clock stamp).passes =
          p.passes ++ [⟨clock.acquired, p.throttleWait limit clock, none⟩])
  early : Idle p → ∀ (clock : Readings) (stamp : Stamp J), p.deadline ≤ clock.opened →
    ¬Due p q clock.checked → (p.wake limit clock stamp).loop = p.loop ∧
      (p.wake limit clock stamp).deadline = clock.slept + 50 ∧
        (p.wake limit clock stamp).passes = p.passes

theorem Keeps.ready_iff (h : Keeps b tickSize p q) (clock : Readings) :
    (p.openWindow clock.opened).ready clock = true ↔ Due p q clock.checked := by
  have hnil := h.peekBatch_eq_nil
  show isBatchReady p.loop.peekBatch.length (currentBatchCap p.loop.daemon.splitSegments)
    p.pendingCount (p.batchStartedAt.getD clock.opened) clock.checked = true ↔ _
  rw [isBatchReady, h.pendingCount, Due, h.window, windowStart]
  by_cases hpending : q.pending = []
  · rw [if_pos (List.length_eq_zero_iff.mpr (hnil.mpr hpending))]
    simp [hpending]
  · rw [if_neg fun hzero => hpending (hnil.mp (List.length_eq_zero_iff.mp hzero)),
      if_neg hpending]
    simp only [Option.getD_some, decide_eq_true_eq, ne_eq, hpending, not_false_eq_true, true_and,
      or_assoc, le_sub_iff_add_le, add_comm]

/-- Past its deadline an idle loop makes a pass. -/
theorem Idle.wake (h : Idle p) (limit : ℕ+) {clock : Readings} (hclock : p.deadline ≤ clock.opened)
    (stamp : Stamp J) :
    p.wake limit clock stamp = (p.reads clock.slept).pass limit clock stamp := by
  have hbusy : ¬(p.loop.inFlight.isSome ∨ p.ended) := by simp [h.inFlight, h.ended]
  have hasleep : ¬(clock.opened < p.deadline ∧ ¬p.shuttingDown) := fun h => hclock.not_gt h.1
  rw [SenderProcess.wake, if_neg hbusy, if_neg hasleep]

theorem Idle.pass (h : Idle p) (limit : ℕ+) (clock : Readings) (stamp : Stamp J) :
    p.pass limit clock stamp =
      if p.loop.peekBatch.isEmpty then { p.sleep clock.slept 50 with batchStartedAt := none }
      else if (p.openWindow clock.opened).ready clock then
        (p.openWindow clock.opened).sendOrWait limit clock stamp
      else (p.openWindow clock.opened).sleep clock.slept 50 := by
  have hstopped : ¬p.shuttingDown = true := by simp [SenderProcess.shuttingDown, h.stoppedAt]
  have hrunning : ¬p.loop.daemon.authHalted = true := by simp [h.running]
  rw [SenderProcess.pass, if_neg hstopped, if_neg hrunning]

theorem Keeps.batchWindow (h : Keeps b tickSize p q) (limit : ℕ+) : BatchWindow limit p q := by
  refine ⟨h.window, fun hidle clock stamp hclock hdue => ?_,
    fun hidle clock stamp hclock hearly => ?_⟩
  · have hbatch : ¬p.loop.peekBatch.isEmpty = true := fun hempty =>
      hdue.1 (h.peekBatch_eq_nil.mp (List.isEmpty_iff.mp hempty))
    have hready : ((p.reads clock.slept).openWindow clock.opened).ready clock = true :=
      (h.ready_iff clock).mpr hdue
    have hreads : Idle (p.reads clock.slept) := ⟨hidle.1, hidle.2, hidle.3, hidle.4⟩
    have hbatch' : ¬(p.reads clock.slept).loop.peekBatch.isEmpty = true := hbatch
    have hwake : p.wake limit clock stamp =
        ((p.reads clock.slept).openWindow clock.opened).sendOrWait limit clock stamp := by
      rw [hidle.wake limit hclock, hreads.pass, if_neg hbatch', if_pos hready]
    have hsame : ((p.reads clock.slept).openWindow clock.opened).throttleWait limit clock =
        p.throttleWait limit clock := rfl
    rw [hwake]
    constructor
    · intro hzero
      obtain ⟨hloop, hacquired⟩ := SenderProcess.sendOrWait_of_slot (hsame.trans hzero) stamp
      refine ⟨hloop.trans ?_, hacquired⟩
      show p.loop.send stamp = _
      rw [SendLoop.send, if_neg (by simp [hidle.inFlight, hidle.running]), if_neg hbatch]
    · intro hwait
      have hpos : 0 < p.throttleWait limit clock :=
        (tryAcquire_wait p.throttle clock.acquired hwait).1.1
      exact ⟨hpos, SenderProcess.sendOrWait_of_wait (hsame ▸ hpos) stamp⟩
  · have hready : ¬((p.reads clock.slept).openWindow clock.opened).ready clock = true :=
      fun hready => hearly ((h.ready_iff clock).mp hready)
    have hreads : Idle (p.reads clock.slept) := ⟨hidle.1, hidle.2, hidle.3, hidle.4⟩
    rw [hidle.wake limit hclock, hreads.pass, if_neg hready]
    split_ifs
    · exact ⟨rfl, rfl, rfl⟩
    · exact ⟨rfl, rfl, rfl⟩

/-- **When a batch is sent.** In every state that a process reaches, `batchStartedAt` is the
time since which the first event of the queue has been first, and zero for the backlog of the
start. A pass of an idle loop asks the throttle exactly when the batch is due, sends it if it
gets a slot and else waits for the next window; otherwise it looks again 50 ms later. -/
theorem batch_window (b : Backlog J) (clock : Json → JsString) (limit : ℕ+) (tickSize : ℕ)
    (start : ℚ) (inputs : List (Input J × List Fate)) :
    Along (senderProcess clock limit tickSize) QueueEffect
      (fun s q => ∃ p, s = some p ∧ BatchWindow limit p q) inputs (some (b.process start))
      ⟨b.ledger.pending, 0, start⟩ :=
  along_keeps b clock limit tickSize start (fun _ _ h => h.batchWindow limit) inputs

end Sender
