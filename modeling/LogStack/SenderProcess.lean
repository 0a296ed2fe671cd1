/-
One process of the sender (`sender/src/daemon.ts`, `sender/src/backoff.ts`): the send loop with
its clock, its throttle and the generator's timer.

* `isBatchReady`, `backoffDelayMs`, `pauseAfter` — when a batch is sent, and how long the loop
  sleeps after an answer;
* `SenderProcess.step` — a tick of the generator, a pass of the loop, an answer, a stop;
* `senderProcess` — the runs of a process whose clock does not go back.
-/
import LogStack.SendLoop
import LogStack.Throttle

open FileProgram Outbox Simulation

namespace Sender

/-! ### Waiting times -/

def BATCH_INTERVAL_MS : ℚ := 1000

def BACKPRESSURE_PENDING_LIMIT : ℕ := 100000

def BACKOFF_BASE_MS : ℚ := 1000

def BACKOFF_CAP_MS : ℚ := 30000

def backoffDelayMs (attempt : ℕ) : ℚ := min BACKOFF_CAP_MS (BACKOFF_BASE_MS * 2 ^ attempt)

def isBatchReady (batchLength batchCap pendingCount : ℕ) (batchStartedAt now : ℚ) : Bool :=
  if batchLength = 0 then false
  else (batchCap ≤ batchLength ∨ batchLength < pendingCount) ∨
    BATCH_INTERVAL_MS ≤ now - batchStartedAt

/-- What the clock says in the course of one pass: it does not go back. -/
structure Readings where
  /-- `batchStartedAt ??= Date.now()`. -/
  opened : ℚ
  /-- The argument of `isBatchReady`. -/
  checked : ℚ
  /-- In `tryAcquire`. -/
  acquired : ℚ
  /-- In `sleep`. -/
  slept : ℚ
  ordered : opened ≤ checked ∧ checked ≤ acquired ∧ acquired ≤ slept

/-- A request that has been answered or has failed, and how long the loop sleeps after it. -/
structure Trip where
  answeredAt : ℚ
  count : ℕ
  action : Option AckAction
  delay : ℚ

/-- A pass of the loop that has asked the throttle, with the request that got its slot. -/
structure Pass where
  time : ℚ
  wait : ℚ
  trip : Option Trip

/-! ### The process -/

variable (J : JsonText) (clock : Json → JsString)

structure SenderProcess where
  loop : SendLoop J
  throttle : FixedWindowThrottle := .new
  batchStartedAt : Option ℚ
  startupBacklog : ℕ
  startupDrainRemaining : ℕ
  startupDrainBatchCounts : List ℕ := []
  generationAttempted : ℕ := 0
  generated : ℕ := 0
  maxPending : ℕ
  /-- When `stop` was called. -/
  stoppedAt : Option ℚ := none
  /-- The loop has returned. -/
  ended : Bool := false
  /-- Until when the loop sleeps, while no request is under way. -/
  deadline : ℚ
  /-- The clock at the last step. -/
  now : ℚ
  /-- The slot of the request under way, and the passes before it. -/
  acquiredAt : Option ℚ := none
  passes : List Pass := []

variable {J}

/-- `constructor` and `start`. -/
def Backlog.process (b : Backlog J) (now : ℚ) : SenderProcess J where
  loop := b.start
  batchStartedAt := if 0 < b.outbox.pendingCount then some 0 else none
  startupBacklog := b.outbox.pendingCount
  startupDrainRemaining := b.outbox.pendingCount
  maxPending := b.outbox.pendingCount
  deadline := now
  now := now

variable (J) in
inductive Input where
  /-- The generator's timer, with the events of `generator.tick`. -/
  | tick (time : ℚ) (events : List Event)
  | wake (clock : Readings) (stamp : Stamp J)
  | answer (time : ℚ) (reply : Option Reply) (random : ℚ)
  | stop (time : ℚ)

namespace SenderProcess

def pendingCount (p : SenderProcess J) : ℕ := p.loop.outbox.pendingCount

def shuttingDown (p : SenderProcess J) : Bool := p.stoppedAt.isSome

/-- The clock is read. -/
def reads (time : ℚ) (p : SenderProcess J) : SenderProcess J := { p with now := time }

def sleep (time ms : ℚ) (p : SenderProcess J) : SenderProcess J := { p with deadline := time + ms }

/-- `batchStartedAt ??= Date.now()`. -/
def openWindow (time : ℚ) (p : SenderProcess J) : SenderProcess J :=
  { p with batchStartedAt := some (p.batchStartedAt.getD time) }

/-- Nothing is generated after a stop, or while too much is pending. -/
def generateTick (time : ℚ) (events : List Event) (plan : List Fate) (p : SenderProcess J) :
    Option (SenderProcess J) :=
  if p.shuttingDown then some (p.reads time)
  else if BACKPRESSURE_PENDING_LIMIT ≤ p.pendingCount then some (p.reads time)
  else if events.isEmpty then some (p.reads time)
  else
    let wasEmpty := p.pendingCount = 0
    (loopStep clock (.append events, plan) p.loop).map fun loop =>
      { p.reads time with
        loop := loop
        generationAttempted := p.generationAttempted + events.length
        batchStartedAt := if wasEmpty then some time else p.batchStartedAt
        generated := p.generated + events.length
        maxPending := max p.maxPending loop.outbox.pendingCount }

/-- The next batch is full, or its second is over. -/
def ready (clock : Readings) (p : SenderProcess J) : Bool :=
  isBatchReady p.loop.peekBatch.length (currentBatchCap p.loop.daemon.splitSegments)
    p.pendingCount (p.batchStartedAt.getD clock.opened) clock.checked

variable (limit : ℕ+)

/-- A batch that is ready asks for a slot. The throttle of a minute is exact at the whole
milliseconds of `Date.now`. -/
def sendOrWait (clock : Readings) (stamp : Stamp J) (p : SenderProcess J) : SenderProcess J :=
  let throttled :=
    FixedWindowThrottle.tryAcquire .exact (minuteThrottle limit) p.throttle clock.acquired
  if 0 < throttled.1 then
    { p.sleep clock.slept throttled.1 with
      throttle := throttled.2
      passes := p.passes ++ [⟨clock.acquired, throttled.1, none⟩] }
  else
    { p with
      loop := p.loop.send stamp
      throttle := throttled.2
      acquiredAt := some clock.acquired }

/-- One round of `sendLoop`, up to its `await`. -/
def pass (clock : Readings) (stamp : Stamp J) (p : SenderProcess J) : SenderProcess J :=
  if p.shuttingDown then { p with ended := true }
  else if p.loop.daemon.authHalted then p.sleep clock.slept 1000
  else if p.loop.peekBatch.isEmpty then { p.sleep clock.slept 50 with batchStartedAt := none }
  else if (p.openWindow clock.opened).ready clock then
    (p.openWindow clock.opened).sendOrWait limit clock stamp
  else (p.openWindow clock.opened).sleep clock.slept 50

/-- The loop's `sleep` ends at its deadline or with a stop. -/
def wake (clock : Readings) (stamp : Stamp J) (p : SenderProcess J) : SenderProcess J :=
  if p.loop.inFlight.isSome ∨ p.ended then p
  else if clock.opened < p.deadline ∧ ¬p.shuttingDown then p.reads clock.slept
  else (p.reads clock.slept).pass limit clock stamp

def noteStartupDrainProgress (count : ℕ) (p : SenderProcess J) : SenderProcess J :=
  if p.startupDrainRemaining = 0 then p
  else
    let drained := min count p.startupDrainRemaining
    { p with
      startupDrainRemaining := p.startupDrainRemaining - drained
      startupDrainBatchCounts := p.startupDrainBatchCounts ++ [drained] }

def resetBatchWindowAfterProgress (time : ℚ) (p : SenderProcess J) : SenderProcess J :=
  if p.pendingCount = 0 then { p with batchStartedAt := none }
  else if 0 < p.startupDrainRemaining then { p with batchStartedAt := some 0 }
  else { p with batchStartedAt := some time }

end SenderProcess

/-- The events of a batch of `count` that a decision deals with. -/
def progressOf (count : ℕ) : Option AckAction → Option ℕ
  | some (.confirm _) => some count
  | some .quarantineBatch => some count
  | some .split => if count = 1 then some 1 else none
  | _ => none

/-- The decision about an answer to a request. -/
def Request.action (request : Request J) (reply : Option Reply) : Option AckAction :=
  reply.map fun r =>
    decideAck J r.status r.bodyText request.batchId request.batch r.retryAfter

/-- How long the loop sleeps after a decision, with the failures so far. -/
def pauseAfter (attempt : ℕ) (random : ℚ) : Option AckAction → ℚ
  | none => backoffDelayMs attempt
  | some (.backoff _) => backoffDelayMs attempt
  | some (.rateLimited retryAfterSec) => rateLimitedDelayMs retryAfterSec random
  | _ => 0

namespace SenderProcess

def progress (time : ℚ) (count : Option ℕ) (p : SenderProcess J) : SenderProcess J :=
  match count with
  | none => p
  | some count => (p.noteStartupDrainProgress count).resetBatchWindowAfterProgress time

/-- The request under way is over. -/
def comeBack (trip : Trip) (loop : SendLoop J) (p : SenderProcess J) : SenderProcess J :=
  { (p.reads trip.answeredAt).sleep trip.answeredAt trip.delay with
    loop := loop
    acquiredAt := none
    passes := p.passes ++ p.acquiredAt.toList.map fun t => Pass.mk t 0 (some trip) }

/-- The rest of `sendBatch` once the answer is there. -/
def answer (time : ℚ) (reply : Option Reply) (random : ℚ) (plan : List Fate)
    (p : SenderProcess J) : Option (SenderProcess J) :=
  match p.loop.inFlight with
  | none => some (p.reads time)
  | some request =>
    let action := request.action reply
    let delay := pauseAfter p.loop.daemon.attempt random action
    let trip : Trip := ⟨time, request.batch.length, action, delay⟩
    (loopStep clock (.answer reply, plan) p.loop).map fun loop =>
      (p.comeBack trip loop).progress time (progressOf request.batch.length action)

def stop (time : ℚ) (p : SenderProcess J) : SenderProcess J :=
  if p.shuttingDown then p.reads time else { p.reads time with stoppedAt := some time }

/-- One step; a throw ends the process. -/
def step (limit : ℕ+) : Input J × List Fate → SenderProcess J → Option (SenderProcess J)
  | (.tick time events, plan), p => p.generateTick clock time events plan
  | (.wake clock stamp, _), p => some (p.wake limit clock stamp)
  | (.answer time reply random, plan), p => p.answer clock time reply random plan
  | (.stop time, _), p => some (p.stop time)

end SenderProcess

/-- The first reading of the clock in a step, and the last. -/
def Input.time : Input J → ℚ
  | .tick time _ => time
  | .wake clock _ => clock.opened
  | .answer time _ _ => time
  | .stop time => time

/-- File-system calls complete, the clock does not go back, `random` gives a number from 0 to 1
and a tick at most `tickSize` events. -/
structure Allowed (tickSize : ℕ) (i : Input J × List Fate) (now : ℚ) : Prop where
  plan : Uninterrupted i.2
  clock : now ≤ i.1.time
  random : ∀ time reply random, i.1 = .answer time reply random → 0 ≤ random ∧ random < 1
  tick : ∀ time events, i.1 = .tick time events → events.length ≤ tickSize

/-- A process with a throttle of `limit` requests a minute. -/
def senderProcess (limit : ℕ+) (tickSize : ℕ) :
    Machine (Option (SenderProcess J)) (Input J × List Fate) Unit where
  enabled i s := ∀ p, s = some p → Allowed tickSize i p.now
  step i s := ((), s.bind (SenderProcess.step clock limit i))

end Sender
