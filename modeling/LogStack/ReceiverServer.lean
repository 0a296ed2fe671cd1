/-
The receiver as a server (`auth/admin-api-key.guard.ts`, `auth/rate-limit.guard.ts`,
`common/interceptors/timeout.interceptor.ts`, the two controllers).

Requests of many clients are in progress at once. The guards decide about a request as it
arrives; what has got past them is handled later, in any order, and is answered when it is
handled or by the deadline, whichever comes first. A batch is handled in one step here: its
transactions are serializable.

* `admission` — the body limit, the parser and the guard of the controller's key;
* `Server.arrive`, `Server.expire`, `Server.complete` — what can happen to a request;
* `Effect`, `step_effect` — all that a step can do.
-/
import LogStack.ApiKeyGuard
import LogStack.MetricsService
import LogStack.RateLimit
import LogStack.Pipeline
import LogStack.Reactive

open Ingestion Metrics
open Pipeline (schema_handle)

namespace Receiver

/-- What a server runs on: its libraries, its database and its environment. -/
structure Host where
  json : JsonText
  libraries : Libraries
  postgres : Postgres
  letterCase : LetterCase
  doubles : Doubles
  round : ℚ → ℚ
  collation : Collation
  env : ServerEnv
  rateLimitPerMinute : Option JsString

/-! ### Requests -/

/-- A request to the metrics controller, its parameters parsed. -/
inductive MetricsRequest where
  | dau (query : MetricsQuery)
  | retention (query : MetricsQuery)
  | revenue (currency : Option JsString) (query : MetricsQuery)
  | purchaseConversion (query : MetricsQuery)
  | engagement (eventType : Option JsString) (query : MetricsQuery)

/-- The two controllers. -/
inductive Controller where
  | ingestion
  | metrics
  deriving DecidableEq

inductive Endpoint where
  | eventBatches (content : Content)
  | metrics (request : MetricsRequest)

structure HttpRequest where
  authorization : Option HeaderValue
  endpoint : Endpoint

def HttpRequest.controller (request : HttpRequest) : Controller :=
  match request.endpoint with
  | .eventBatches _ => .ingestion
  | .metrics _ => .metrics

inductive MetricsData where
  | dau (response : Response ℕ DauRow)
  | retention (response : Response Unit RetentionRow)
  | revenue (response : Response RevenueSummary RevenueRow)
  | purchaseConversion (response : Response ConversionSummary ConversionRow)
  | engagement (response : Response Unit EngagementRow)

/-- A 200 of the metrics controller, or any other response with its `Retry-After` header. -/
inductive Reply where
  | data (metrics : MetricsData)
  | response (response : HttpResponse) (retryAfter : Option JsString)

def Reply.status : Reply → ℕ
  | data _ => 200
  | response r _ => r.status

/-- What a controller has to do for a request. -/
inductive Work where
  | ingest (request : Json)
  | read (request : MetricsRequest)

/-! ### The guards -/

def AdminApiKeyGuard.canActivate (env : Env) (authorization : Option HeaderValue) :
    Option Refusal :=
  match env.adminApiKey.filter (· ≠ []), authorization with
  | some expectedKey, some header =>
    if !bearerPrefix.isPrefixOf header.text then some .unauthorized
    else if !safeEquals (header.text.drop bearerPrefix.length) expectedKey then
      some .unauthorized
    else none
  | _, _ => some .unauthorized

/-- `request.headers.authorization ?? ''` without `Bearer `. -/
def apiKey (authorization : Option HeaderValue) : JsString :=
  (authorization.elim [] HeaderValue.text).drop bearerPrefix.length

section Host

variable (host : Host)

/-- Up to the guard of the key; nothing is counted yet. -/
def admission (request : HttpRequest) : Except Reply Work :=
  match request.endpoint with
  | .eventBatches content =>
    if content.TooLarge then
      .error (.response (respond host.json 413
        (errorBody (js "PAYLOAD_TOO_LARGE") (js "request body exceeds 4MB limit"))) none)
    else
      match parseBody host.json content with
      | none => .error (.response (respond host.json 400
          (errorBody (js "MALFORMED_REQUEST")
            (js "request body could not be parsed as JSON"))) none)
      | some value =>
        match canActivate host.letterCase host.env.toEnv request.authorization value with
        | some refusal => .error (.response (refusal.response host.json) none)
        | none => .ok (.ingest value)
  | .metrics query =>
    match AdminApiKeyGuard.canActivate host.env.toEnv request.authorization with
    | some refusal => .error (.response (refusal.response host.json) none)
    | none => .ok (.read query)

def RateLimitGuard.limitPerMinute : ℕ :=
  Ingestion.limitPerMinute host.doubles host.rateLimitPerMinute

/-! ### The controllers -/

/-- What the metrics service answers to a request at a time. -/
def read (now : ℤ) (db : Tables) : MetricsRequest → Except MetricsError MetricsData
  | .dau query => (getDau db query).map .dau
  | .retention query => (getRetention db host.round now query).map .retention
  | .revenue currency query => (getRevenue db currency query).map .revenue
  | .purchaseConversion query =>
    (getPurchaseConversion db host.round query).map .purchaseConversion
  | .engagement eventType query =>
    (getEngagement db host.round host.collation eventType query).map .engagement

/-- The service looks at its parameters before it asks the database. -/
def readReply (reachable : Bool) (now : ℤ) (db : Tables) (request : MetricsRequest) : Reply :=
  match read host now db request with
  | .error e => .response (respond host.json 400 (errorBody e.code e.message)) none
  | .ok metrics =>
    if reachable then .data metrics
    else .response (answerResponse host.json .unavailable) none

/-- A batch that the service is handed. -/
structure Handled where
  task : ℕ
  request : Json
  reachable : Bool

/-- The response to a batch, and the tables after it. -/
def Handled.result (h : Handled) (db : Tables) : HttpResponse × Tables :=
  handle host.json host.libraries host.postgres h.reachable h.request db

/-- One batch after the other. -/
def handleAll (db : Tables) (handled : List Handled) : Tables :=
  handled.foldl (fun db h => (h.result host db).2) db

/-! ### The server -/

def REQUEST_DEADLINE_MS : ℤ := 10000

/-- A request that has come in at a time. -/
structure Arrival where
  time : ℤ
  request : HttpRequest

/-- A request past the guards. -/
structure Task extends Arrival where
  work : Work
  answered : Bool
  done : Bool

def Task.finish (task : Task) : Task := { task with answered := true, done := true }

structure Exchange extends Arrival where
  reply : Reply

/-- A client that has its answer gets no other. -/
def Task.send (task : Task) (reply : Reply) : Option Exchange :=
  if task.answered then none else some ⟨task.toArrival, reply⟩

/-- `handled` only records the batches handled so far. -/
structure Server where
  database : Database
  windows : RateLimitStore
  tasks : Controller → List Task
  handled : List Handled

/-- The server starts on the tables that it finds. -/
def Server.start (database : Database) : Server := ⟨database, .empty, fun _ => [], []⟩

inductive Event where
  | arrives (request : HttpRequest)
  | expires (controller : Controller) (task : ℕ)
  | completes (controller : Controller) (task : ℕ) (reachable : Bool)

structure Input where
  time : ℤ
  event : Event

namespace Server

variable (s : Server)

/-- A request past the guards waits for its controller. -/
def enqueue (arrival : Arrival) (work : Work) : Server :=
  { s with
    tasks := Function.update s.tasks arrival.request.controller
      (s.tasks arrival.request.controller ++ [⟨arrival, work, false, false⟩]) }

def mark (controller : Controller) (number : ℕ) (task : Task) : Server :=
  { s with tasks := Function.update s.tasks controller ((s.tasks controller).set number task) }

section Tasks

variable {s} {arrival : Arrival} {work : Work} {controller other : Controller} {number : ℕ}
  {task : Task}

@[simp]
theorem tasks_enqueue : (s.enqueue arrival work).tasks arrival.request.controller =
    s.tasks arrival.request.controller ++ [⟨arrival, work, false, false⟩] :=
  Function.update_self ..

theorem tasks_enqueue_of_ne (h : controller ≠ arrival.request.controller) :
    (s.enqueue arrival work).tasks controller = s.tasks controller := Function.update_of_ne h ..

@[simp]
theorem tasks_mark :
    (s.mark controller number task).tasks controller = (s.tasks controller).set number task :=
  Function.update_self ..

theorem tasks_mark_of_ne (h : other ≠ controller) :
    (s.mark controller number task).tasks other = s.tasks other := Function.update_of_ne h ..

end Tasks

/-- The service handles a batch. -/
def ingest (h : Handled) : Server :=
  { s with
    database := ⟨(h.result host s.database.toTables).2,
      schema_handle host.json host.libraries host.postgres s.database h.reachable h.request⟩
    handled := s.handled ++ [h] }

/-- Middleware and guards; only batches are counted. -/
def arrive (arrival : Arrival) : Option Exchange × Server :=
  match admission host arrival.request with
  | .error reply => (some ⟨arrival, reply⟩, s)
  | .ok (.read request) => (none, s.enqueue arrival (.read request))
  | .ok (.ingest request) =>
    let (result, windows) := s.windows.consume (apiKey arrival.request.authorization)
      (RateLimitGuard.limitPerMinute host) arrival.time
    if result.allowed then (none, { s with windows := windows }.enqueue arrival (.ingest request))
    else
      (some ⟨arrival,
        .response (Refusal.rateLimited.response host.json) (retryAfterHeader result)⟩,
        { s with windows := windows })

/-- `TimeoutInterceptor`: the client is answered, and the handler goes on. -/
def expire (time : ℤ) (controller : Controller) (number : ℕ) : Option Exchange × Server :=
  match (s.tasks controller)[number]? with
  | none => (none, s)
  | some task =>
    if task.answered ∨ time < task.time + REQUEST_DEADLINE_MS then (none, s)
    else
      (some ⟨task.toArrival, .response (respond host.json 503 (errorBody
          (js "STORAGE_UNAVAILABLE") (js "request exceeded server deadline, retry later"))) none⟩,
        s.mark controller number { task with answered := true })

/-- A handler comes to its end. -/
def complete (time : ℤ) (controller : Controller) (number : ℕ) (reachable : Bool) :
    Option Exchange × Server :=
  match (s.tasks controller)[number]? with
  | none => (none, s)
  | some task =>
    if task.done then (none, s)
    else
      let s' := s.mark controller number task.finish
      match task.work with
      | .read request => (task.send (readReply host reachable time s.database.toTables request), s')
      | .ingest request =>
        let h : Handled := ⟨number, request, reachable⟩
        (task.send (.response (h.result host s.database.toTables).1 none), s'.ingest host h)

def step (input : Input) : Option Exchange × Server :=
  match input.event with
  | .arrives request => s.arrive host ⟨input.time, request⟩
  | .expires controller task => s.expire host input.time controller task
  | .completes controller task reachable => s.complete host input.time controller task reachable

/-- The server after some inputs. -/
def after (s : Server) (inputs : List Input) : Server := Reactive.after (step host) s inputs

/-- What it has answered on the way. -/
def exchanges (s : Server) (inputs : List Input) : List Exchange :=
  Reactive.outputs (step host) s inputs

end Server

/-! ### What a step can do -/

/-- The counter's answer to a batch that arrives. -/
def Server.consume (s : Server) (arrival : Arrival) : ConsumeResult × RateLimitStore :=
  s.windows.consume (apiKey arrival.request.authorization) (RateLimitGuard.limitPerMinute host)
    arrival.time

inductive Effect (s : Server) : Input → Option Exchange → Server → Prop where
  /-- A task that does not exist, or whose time has not come or is over. -/
  | idle {time : ℤ} {event : Event} (h : ∀ request, event ≠ .arrives request) :
      Effect s ⟨time, event⟩ none s
  | refused {arrival : Arrival} {reply : Reply}
      (h : admission host arrival.request = .error reply) :
      Effect s ⟨arrival.time, .arrives arrival.request⟩ (some ⟨arrival, reply⟩) s
  | queued {arrival : Arrival} {query : MetricsRequest}
      (h : admission host arrival.request = .ok (.read query)) :
      Effect s ⟨arrival.time, .arrives arrival.request⟩ none (s.enqueue arrival (.read query))
  | granted {arrival : Arrival} {value : Json}
      (h : admission host arrival.request = .ok (.ingest value))
      (hallowed : (s.consume host arrival).1.allowed = true) :
      Effect s ⟨arrival.time, .arrives arrival.request⟩ none
        ({ s with windows := (s.consume host arrival).2 }.enqueue arrival (.ingest value))
  | limited {arrival : Arrival} {value : Json}
      (h : admission host arrival.request = .ok (.ingest value))
      (hallowed : (s.consume host arrival).1.allowed = false) :
      Effect s ⟨arrival.time, .arrives arrival.request⟩
        (some ⟨arrival, .response (Refusal.rateLimited.response host.json)
          (retryAfterHeader (s.consume host arrival).1)⟩)
        { s with windows := (s.consume host arrival).2 }
  | expired {time : ℤ} {controller : Controller} {number : ℕ} {task : Task} {reply : Reply}
      (h : (s.tasks controller)[number]? = some task) (hwaits : task.answered = false)
      (hlate : task.time + REQUEST_DEADLINE_MS ≤ time) (hreply : reply.status = 503) :
      Effect s ⟨time, .expires controller number⟩ (some ⟨task.toArrival, reply⟩)
        (s.mark controller number { task with answered := true })
  | read {time : ℤ} {controller : Controller} {number : ℕ} {task : Task} {reachable : Bool}
      {query : MetricsRequest} (h : (s.tasks controller)[number]? = some task)
      (hopen : task.done = false) (hwork : task.work = .read query) :
      Effect s ⟨time, .completes controller number reachable⟩
        (task.send (readReply host reachable time s.database.toTables query))
        (s.mark controller number task.finish)
  | handled {time : ℤ} {controller : Controller} {number : ℕ} {task : Task} {reachable : Bool}
      {value : Json} (h : (s.tasks controller)[number]? = some task)
      (hopen : task.done = false) (hwork : task.work = .ingest value) :
      Effect s ⟨time, .completes controller number reachable⟩
        (task.send (.response
          (Handled.result host ⟨number, value, reachable⟩ s.database.toTables).1 none))
        ((s.mark controller number task.finish).ingest host
          ⟨number, value, reachable⟩)

theorem step_effect (s : Server) (input : Input) :
    Effect host s input (s.step host input).1 (s.step host input).2 := by
  obtain ⟨time, event⟩ := input
  cases event with
  | arrives request =>
    show Effect host s ⟨time, .arrives request⟩ (s.arrive host ⟨time, request⟩).1
      (s.arrive host ⟨time, request⟩).2
    unfold Server.arrive
    cases hadmission : admission host request with
    | error reply => exact @Effect.refused host s ⟨time, request⟩ reply hadmission
    | ok work =>
      cases work with
      | read query => exact @Effect.queued host s ⟨time, request⟩ query hadmission
      | ingest value =>
        dsimp only
        cases hallowed : (s.consume host ⟨time, request⟩).1.allowed with
        | true =>
          rw [Server.consume] at hallowed
          rw [if_pos hallowed]
          exact @Effect.granted host s ⟨time, request⟩ value hadmission hallowed
        | false =>
          rw [Server.consume] at hallowed
          rw [if_neg (by rw [hallowed]; decide)]
          exact @Effect.limited host s ⟨time, request⟩ value hadmission hallowed
  | expires controller number =>
    show Effect host s ⟨time, .expires controller number⟩ (s.expire host time controller number).1
      (s.expire host time controller number).2
    unfold Server.expire
    cases htask : (s.tasks controller)[number]? with
    | none => exact .idle fun _ h => nomatch h
    | some task =>
      dsimp only
      split_ifs with hcase
      · exact .idle fun _ h => nomatch h
      · rw [not_or, not_lt, Bool.not_eq_true] at hcase
        exact .expired htask hcase.1 hcase.2 rfl
  | completes controller number reachable =>
    show Effect host s ⟨time, .completes controller number reachable⟩
      (s.complete host time controller number reachable).1
      (s.complete host time controller number reachable).2
    unfold Server.complete
    cases htask : (s.tasks controller)[number]? with
    | none => exact .idle fun _ h => nomatch h
    | some task =>
      dsimp only
      cases hdone : task.done with
      | true => exact .idle fun _ h => nomatch h
      | false =>
        rw [if_neg Bool.false_ne_true]
        cases hwork : task.work with
        | read query => exact .read htask hdone hwork
        | ingest value => exact .handled htask hdone hwork

end Host

end Receiver
