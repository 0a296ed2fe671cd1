/-
One sender, a network and the receiver.

The sender records events, sends batches from the head of its queue and settles them by the
answers.  It may be killed between any two file-system calls and in the middle of any, and its
directory is opened again any number of times.  The network may lose, delay and repeat requests,
and lose answers.  The receiver serves a request whenever it arrives; a 503 says nothing about
the transaction.

* `Process`, `System` — the states;
* `Action`, `System.step` — what may happen next;
* `loopStep_eq` — a process that is not killed is the send loop of before;
* `Shows`, `HasRecord`, `HasRow` — where an event is: waiting in the outbox, in `failed.jsonl`,
  in `game_events`;
* `Accounted` — every recorded event is in one of these places, and none in the last two.
-/
import LogStack.Resolution

open FileProgram Lines Outbox Ingestion Sender

namespace Pipeline

/-! ### The parties -/

/-- How the file-system calls of one operation end: they complete, a write perhaps in several
pieces, or the process is killed. -/
structure Schedule where
  fates : List Fate
  crash : ∀ f ∈ fates, ∀ c : Call String, Fate.Crash c f

section Parties

variable (J : JsonText)

/-- The sender's directory, or the process that has opened it. -/
inductive Process where
  | down (files : Files String)
  | up (loop : SendLoop J)

structure System where
  process : Process J
  /-- Every request that was ever sent. -/
  requests : List (Request J)
  /-- Every answer, with the number of its request. -/
  answers : List (ℕ × HttpResponse)
  database : Database
  /-- The events whose `appendMany` returned. -/
  returned : List Event

/-- An empty directory and empty tables. -/
def System.start : System J where
  process := .down fun _ => none
  requests := []
  answers := []
  database := .empty
  returned := []

end Parties

variable {J : JsonText} {L : Libraries} {pg : Postgres}

namespace Process

def files : Process J → Files String
  | .down files => files
  | .up loop => loop.world.files

/-- The process after an operation; a throw ends it. -/
def after {α : Type} (next : α → Outbox → World String → SendLoop J) :
    Outcome String Outbox α → Process J
  | .returned x ob w => .up (next x ob w)
  | .threw _ _ w => .down w.files
  | .killed files => .down files

/-- `Outbox.open` in a new process. -/
def «open» (limit : ℕ) (schedule : Schedule) (files : Files String) : Process J :=
  after (fun _ ob w => { outbox := ob, world := w })
    (run (Outbox.open J limit) schedule.fates { failedIdCacheLimit := 0 } (World.boot files))

/-- The loop gets the answer to the request under way, or learns that it failed. -/
def settle (clock : Json → JsString) (reply : Option Reply) (schedule : Schedule)
    (loop : SendLoop J) : Process J :=
  match loop.inFlight with
  | none => .up loop
  | some request =>
    after (fun daemon ob w =>
        ⟨ob, w, daemon, none, loop.acknowledged ++ confirmedBy request reply⟩)
      (run (sendBatch J clock request.batchId request.batch reply loop.daemon) schedule.fates
        loop.outbox loop.world)

/-- The loop closes its outbox and ends. -/
def close (schedule : Schedule) (loop : SendLoop J) : Process J :=
  match run Outbox.close schedule.fates loop.outbox loop.world with
  | .returned _ _ w | .threw _ _ w => .down w.files
  | .killed files => .down files

end Process

/-! ### Steps -/

variable (J L) in
inductive Action where
  /-- A new process opens the directory. -/
  | open (limit : ℕ) (schedule : Schedule)
  | append (events : List Event) (schedule : Schedule)
  /-- A pass of the send loop. -/
  | send (label : Label J L)
  /-- An answer arrives, with the number in its `Retry-After`. -/
  | receive (answer : ℕ) (retryAfter : Option ℚ) (clock : Json → JsString) (schedule : Schedule)
  /-- The request times out, or its connection breaks. -/
  | lose (clock : Json → JsString) (schedule : Schedule)
  | close (schedule : Schedule)
  /-- The process is killed between two calls. -/
  | kill
  /-- A request arrives at the receiver, for the first time or again. -/
  | serve (request : ℕ) (reachable : Bool) (refusal : Option Refusal)
  /-- The receiver gives up waiting for the database. -/
  | giveUp (request : ℕ)

def Action.events : Action J L → List Event
  | .append events _ => events
  | _ => []

variable (J L pg) in
theorem schema_handle (db : Database) (reachable : Bool) (request : Json) :
    (handle J L pg reachable request db.toTables).2.Schema := by
  rw [handle]
  cases L.plainToInstance request with
  | none => exact db.schema
  | some dto =>
    dsimp only
    split_ifs
    · exact db.schema
    · split
      · exact schema_ingest L pg db reachable _ _
      · exact db.schema

variable (J L pg) in
/-- Serving a request keeps the constraints of the schema. -/
theorem schema_receive (db : Database) (reachable : Bool) (refusal : Option Refusal)
    (content : Content) : (receive J L pg reachable refusal content db.toTables).2.Schema := by
  rw [receive]
  split_ifs
  · exact db.schema
  cases parseBody J content with
  | none => exact db.schema
  | some request =>
    cases refusal with
    | some refusal => exact db.schema
    | none => exact schema_handle J L pg db reachable request

namespace System

/-- The receiver answers a request. -/
def serve (L : Libraries) (pg : Postgres) (number : ℕ) (reachable : Bool)
    (refusal : Option Refusal) (s : System J) : System J :=
  match s.requests[number]? with
  | none => s
  | some request =>
    { s with
      answers := s.answers
        ++ [(number, (receive J L pg reachable refusal (.json request.body) s.database.toTables).1)]
      database := ⟨(receive J L pg reachable refusal (.json request.body) s.database.toTables).2,
        schema_receive J L pg s.database reachable refusal (.json request.body)⟩ }

/-- An answer arrives. A request that the sender has given up has no connection any more. -/
def receive (answer : ℕ) (retryAfter : Option ℚ) (clock : Json → JsString) (schedule : Schedule)
    (s : System J) : System J :=
  match s.process, s.answers[answer]? with
  | .up loop, some (number, response) =>
    if number + 1 = s.requests.length then
      let reply : Reply := ⟨response.status, response.body, retryAfter⟩
      { s with process := .settle clock (some reply) schedule loop }
    else s
  | _, _ => s

def append (events : List Event) (schedule : Schedule) (s : System J) : System J :=
  match s.process with
  | .down _ => s
  | .up loop =>
    match run (appendMany J (events.map Event.value)) schedule.fates loop.outbox loop.world with
    | .returned _ ob w =>
      { s with
        process := .up { loop with outbox := ob, world := w }
        returned := s.returned ++ events }
    | .threw _ _ w => { s with process := .down w.files }
    | .killed files => { s with process := .down files }

def send (label : Label J L) (s : System J) : System J :=
  match s.process with
  | .down _ => s
  | .up loop =>
    if loop.inFlight.isSome then s
    else
      { s with
        process := .up (loop.send label.toStamp)
        requests := s.requests ++ (loop.send label.toStamp).inFlight.toList }

variable (pg) in
def step (s : System J) : Action J L → System J
  | .open limit schedule =>
    match s.process with
    | .down files => { s with process := .open limit schedule files }
    | .up _ => s
  | .append events schedule => s.append events schedule
  | .send label => s.send label
  | .receive answer retryAfter clock schedule => s.receive answer retryAfter clock schedule
  | .lose clock schedule =>
    match s.process with
    | .down _ => s
    | .up loop => { s with process := .settle clock none schedule loop }
  | .close schedule =>
    match s.process with
    | .down _ => s
    | .up loop => { s with process := .close schedule loop }
  | .kill => { s with process := .down s.process.files }
  | .serve request reachable refusal => s.serve L pg request reachable refusal
  | .giveUp request =>
    if request < s.requests.length then
      { s with answers := s.answers ++ [(request, answerResponse J .unavailable)] }
    else s

variable (pg) in
def run (s : System J) (actions : List (Action J L)) : System J := actions.foldl (step pg) s

end System

/-! ### The send loop -/

def Process.loop? : Process J → Option (SendLoop J)
  | .down _ => none
  | .up loop => some loop

/-- Until it is killed, a process takes the steps of the send loop. -/
theorem loopStep_eq (clock : Json → JsString) (schedule : Schedule) {s : System J}
    {loop : SendLoop J} (hprocess : s.process = .up loop) :
    (∀ events, loopStep clock (.append events, schedule.fates) loop
      = (s.append events schedule).process.loop?) ∧
    (∀ label : Label J L, loopStep clock (.send label.toStamp, schedule.fates) loop
      = (s.send label).process.loop?) ∧
    ∀ reply, loopStep clock (.answer reply, schedule.fates) loop
      = (Process.settle clock reply schedule loop).loop? := by
  refine ⟨fun events => ?_, fun label => ?_, fun reply => ?_⟩
  · rw [loopStep, System.append, hprocess]
    dsimp only
    cases FileProgram.run (appendMany J (events.map Event.value)) schedule.fates loop.outbox
      loop.world <;> rfl
  · rw [loopStep, System.send, hprocess]
    dsimp only
    split_ifs with hwaits
    · rw [SendLoop.send, if_pos (.inl hwaits), hprocess]
      rfl
    · rfl
  · rw [loopStep, Process.settle]
    cases loop.inFlight with
    | none => rfl
    | some request =>
      dsimp only
      cases FileProgram.run (sendBatch J clock request.batchId request.batch reply loop.daemon)
        schedule.fates loop.outbox loop.world <;> rfl

/-! ### Where the events are -/

/-- The events behind the checkpoint. A process has them in its queue, and the next process
that is left to open the directory will have them. -/
structure Process.Shows (process : Process J) (queue : List Event) : Prop where
  held : ∀ loop, process = .up loop →
    loop.outbox.pending.map PendingEntry.event = queue.map Event.value
  kept : ∀ limit fates, Uninterrupted fates → ∃ ob w,
    Outbox.step J (.open limit, fates) (.down process.files) = (.returned 0, .up ob w) ∧
      ob.pending.map PendingEntry.event = queue.map Event.value

namespace System

variable (s : System J)

/-- The complete lines of `failed.jsonl`. -/
def failedLines : List Bytes :=
  (splitLines newline ((s.process.files failedPath).getD [])).1

def HasRecord (e : Event) : Prop :=
  ∃ line ∈ s.failedLines,
    (J.parse line).bind (fun record => record.get? (js "event")) = some e.value

variable (L pg) in
def HasRow (e : Event) : Prop := ∃ row ∈ s.database.gameEvents, RowOf L pg e row

end System

variable (L pg) in
/-- **No event is lost, and none is resolved twice.** -/
structure Accounted (s : System J) : Prop where
  resolved : ∃ queue, s.process.Shows queue ∧
    (∀ e ∈ s.returned, e ∈ queue ∨ s.HasRecord e ∨ s.HasRow L pg e) ∧
    (queue = [] → ∀ e ∈ s.returned, Xor (s.HasRecord e) (s.HasRow L pg e))
  unique : s.database.eventIds.Nodup
  disjoint : ∀ line ∈ s.failedLines, ∃ id, failedRecordId J line = .ok id ∧
    canonicalId id ∉ s.database.eventIds

end Pipeline
