/-
What the generator sends and the receiver takes.

* `GeneratedEvent.accepted` — a generated event passes validation, and its values fit their
  columns;
* `GeneratedBatch` — a batch of generated events as the sender builds it;
* `CorrectlyKeyed` — a server, and a sender with its key and its instance;
* `generated_traffic` — no generated event is rejected and no batch of them malformed.
-/
import LogStack.PlainEvents

open Calendar (MAX_DAY toISOString)
open Ingestion KeyedInsert
open Json (string? integer?)

namespace Sender

/-! ### Generated events -/

namespace GeneratedEvent

variable (e : GeneratedEvent) {instanceId : JsString}

theorem sessionId_text : Text (js "s-" ++ decimal e.userId ++ js "-" ++ e.bootId) ∧
    1 ≤ (js "s-" ++ decimal e.userId ++ js "-" ++ e.bootId).length ∧
    (js "s-" ++ decimal e.userId ++ js "-" ++ e.bootId).length ≤ 64 := by
  have hdigits : (decimal e.userId).length ≤ 15 :=
    length_decimal_le (by decide) (lt_of_le_of_lt e.userId_le (by decide))
  have hboot := e.bootId_text.2
  have hstart : (js "s-").length = 2 ∧ (js "-").length = 1 := ⟨rfl, rfl⟩
  simp only [List.length_append, hstart]
  refine ⟨?_, by omega, by omega⟩
  exact (((by decide +kernel : Text (js "s-")).append (text_decimal _)).append
    (by decide +kernel)).append e.bootId_text.1

theorem channelId_text : Text (js "channel-0" ++ decimal (1 + e.userId % 3)) ∧
    1 ≤ (js "channel-0" ++ decimal (1 + e.userId % 3)).length ∧
    (js "channel-0" ++ decimal (1 + e.userId % 3)).length ≤ 64 := by
  have hdigits : (decimal (1 + e.userId % 3)).length ≤ 1 :=
    length_decimal_le (by decide) (by omega)
  have hstart : (js "channel-0").length = 9 := rfl
  simp only [List.length_append, hstart]
  exact ⟨(by decide +kernel : Text (js "channel-0")).append (text_decimal _), by omega, by omega⟩

theorem userId_lt : e.userId < 2 ^ 53 := e.userId_le.trans_lt (by decide)

theorem characterId_lt : e.userId * 10 + 1 < 2 ^ 53 := by
  have huser := e.userId_le
  rw [MAX_USER_ID] at huser
  omega

def toPlain (hinstance : isInstanceUuid instanceId = true) : PlainEvent where
  instanceId := instanceId
  eventId := e.eventId
  userId := e.userId
  characterId := e.userId * 10 + 1
  sessionId := js "s-" ++ decimal e.userId ++ js "-" ++ e.bootId
  channelId := js "channel-0" ++ decimal (1 + e.userId % 3)
  ms := e.now
  type := e.type
  payload := e.payload
  instanceId_uuid := hinstance
  eventId_v4 := e.eventId_v4
  userId_lt := e.userId_lt
  characterId_lt := e.characterId_lt
  sessionId_text := e.sessionId_text
  channelId_text := e.channelId_text
  ms_le := e.now_le
  content := e.content

theorem ordinary (hinstance : isInstanceUuid instanceId = true) :
    ordinary 2 (e.toJson instanceId) = true := (e.toPlain hinstance).ordinary

theorem plain (hinstance : isInstanceUuid instanceId = true) : (e.toJson instanceId).Plain :=
  (e.toPlain hinstance).plain

/-- **A generated event** is accepted and its values fit. -/
theorem accepted (L : StandardLibraries) (P : StandardPostgres) (e : GeneratedEvent)
    (hinstance : isInstanceUuid instanceId = true) :
    ∃ event, validateEvent L.toLibraries (e.toJson instanceId) = some (.accepted event) ∧
      SafeIntegers event ∧ InDomain P.toPostgres event := by
  obtain ⟨event, hvalid, ⟨hsafe, hdomain⟩, -⟩ := (e.toPlain hinstance).accepted L P
  exact ⟨event, hvalid, hsafe, hdomain⟩

end GeneratedEvent

/-! ### Batches -/

/-- A time step of some generator has made the event. -/
def Produced (M : JsMath) (config : SenderConfig) (event : Json) : Prop :=
  ∃ (source : Source) (start i fuel : ℕ) (dtMs : ℚ) (events : List Json),
    (tick M (EventGenerator.new config source start).1 fuel dtMs source i).1 = some events ∧
      event ∈ events

/-- A batch of generated events. -/
structure GeneratedBatch (M : JsMath) (config : SenderConfig) where
  batchId : JsString
  batchId_v4 : isUuidV4 batchId = true
  sentAt : ℕ
  sentAt_le : sentAt / 86400000 ≤ MAX_DAY
  events : List Json
  produced : ∀ event ∈ events, Produced M config event
  count : 1 ≤ events.length ∧ events.length ≤ MAX_EVENTS_PER_BATCH

def GeneratedBatch.toJson {M : JsMath} {config : SenderConfig} (batch : GeneratedBatch M config) :
    Json := batchJson batch.batchId (toISOString batch.sentAt) batch.events

/-- The server has the key and the instance of the sender. -/
structure CorrectlyKeyed (C : LetterCase) (config : SenderConfig) where
  server : ServerEnv
  header : HeaderValue
  header_eq : header.text = bearerPrefix ++ config.apiKey
  key : server.ingestApiKey = some config.apiKey
  instanceId : server.ingestInstanceId.map C.lower = some (C.lower config.instanceId)

section Batches

variable {M : JsMath} {config : SenderConfig} {C : LetterCase} {event : Json}

theorem Produced.generated (h : Produced M config event) (hconfig : config.Checked) :
    ∃ e : GeneratedEvent, event = e.toJson config.instanceId := by
  obtain ⟨source, start, i, fuel, dtMs, events, htick, hevent⟩ := h
  exact always_tick fuel dtMs hconfig (always_new config source start) source i events htick
    event hevent

/-- The head of a queue of generated events is a batch of them. -/
theorem peekBatch_produced (ob : Outbox) (emptyBytes maxBytes : ℕ) {maxCount : ℕ}
    (hcount : 0 < maxCount ∧ maxCount ≤ MAX_EVENTS_PER_BATCH) (hne : ob.pending ≠ [])
    (h : ∀ entry ∈ ob.pending, Produced M config entry.event) :
    (∀ event ∈ ob.peekBatch emptyBytes maxCount maxBytes, Produced M config event) ∧
      1 ≤ (ob.peekBatch emptyBytes maxCount maxBytes).length ∧
      (ob.peekBatch emptyBytes maxCount maxBytes).length ≤ MAX_EVENTS_PER_BATCH := by
  obtain ⟨n, hn, hmax, hpos, hbatch⟩ := peekBatch_spec ob emptyBytes maxBytes hcount.1
  have hlength : ((ob.pending.take n).map PendingEntry.event).length = n := by
    rw [List.length_map, List.length_take]
    exact Nat.min_eq_left hn
  rw [hbatch, hlength]
  refine ⟨fun event hevent => ?_, hpos hne, hmax.trans hcount.2⟩
  obtain ⟨entry, hentry, rfl⟩ := List.mem_map.mp hevent
  exact h entry (List.mem_of_mem_take hentry)

variable (batch : GeneratedBatch M config) (hconfig : config.Checked)

include hconfig

theorem GeneratedBatch.ordinary : ordinary BATCH_DEPTH batch.toJson = true := by
  have hkeys : ∀ key ∈ [js "batch_id", js "sent_at", js "events"],
      decide (key ∉ inheritedNames) = true := by decide +kernel
  simp only [List.forall_mem_cons] at hkeys
  simp only [GeneratedBatch.toJson, batchJson, BATCH_DEPTH, Ingestion.ordinary, List.all_cons,
    List.all_nil, hkeys, Bool.and_true, Bool.true_and, List.all_eq_true]
  intro event hevent
  obtain ⟨e, rfl⟩ := (batch.produced event hevent).generated hconfig
  exact e.ordinary hconfig.instanceId

theorem GeneratedBatch.plain : batch.toJson.Plain := by
  refine Json.plain_obj.mpr ⟨by simp only [List.map]; decide +kernel, ?_⟩
  simp only [List.forall_mem_cons]
  refine ⟨Json.plain_str _, Json.plain_str _, Json.plain_arr.mpr fun event hevent => ?_, by simp⟩
  obtain ⟨e, rfl⟩ := (batch.produced event hevent).generated hconfig
  exact e.plain hconfig.instanceId

/-- **A batch passes the check of its structure.** -/
theorem GeneratedBatch.holds (L : StandardLibraries) :
    ∃ dto, L.plainToInstance batch.toJson = some dto ∧
      eventBatchRequestDto.holds L.toStringChecks dto ∧
      dto.get? (js "batch_id") = some (.str batch.batchId) ∧
      dto.get? (js "events") = some (.arr batch.events) := by
  obtain ⟨dto, hcopy, hget⟩ := exists_instance L (batch.ordinary hconfig) (batch.plain hconfig)
  have hbatchId : dto.get? (js "batch_id") = some (.str batch.batchId) :=
    (hget _ (by decide +kernel)).trans rfl
  have hsentAt : dto.get? (js "sent_at") = some (.str (toISOString batch.sentAt)) :=
    (hget _ (by decide +kernel)).trans rfl
  have hevents : dto.get? (js "events") = some (.arr batch.events) :=
    (hget _ (by decide +kernel)).trans rfl
  refine ⟨dto, hcopy, ?_, hbatchId, hevents⟩
  simp only [eventBatchRequestDto, Dto.holds_cons, Dto.holds_nil, List.forall_mem_cons,
    List.not_mem_nil, false_imp_iff, implies_true, and_true, Constraint.holds, hbatchId, hsentAt,
    hevents, string?, Json.array?, Option.any_some, Option.isSome_some, Bool.and_eq_true,
    decide_eq_true_iff, true_and]
  exact ⟨L.isUUID_of _ (isUuidV4_spec batch.batchId_v4).1,
    L.isISO8601_toISOString false _ batch.sentAt_le, batch.count⟩

/-- The guard lets it through. -/
theorem canActivate_generated (keyed : CorrectlyKeyed C config) :
    canActivate C keyed.server.toEnv (some keyed.header) batch.toJson = none := by
  obtain ⟨mappedId, hmapped, hfilter⟩ := exists_instanceId keyed.server C
  have hlower : C.lower mappedId = C.lower config.instanceId := by
    have h := keyed.instanceId
    rw [hmapped, Option.map_some, Option.some.injEq] at h
    exact h
  have hkey : keyed.server.ingestApiKey.filter (· ≠ []) = some config.apiKey := by
    rw [keyed.key, Option.filter_some, if_pos]
    exact decide_eq_true hconfig.apiKey
  have hstart : bearerPrefix.isPrefixOf keyed.header.text = true := by
    rw [keyed.header_eq, List.isPrefixOf_iff_prefix]
    exact List.prefix_append _ _
  have hequals : safeEquals (keyed.header.text.drop bearerPrefix.length) config.apiKey = true := by
    rw [keyed.header_eq, List.drop_left, safeEquals]
    exact decide_eq_true rfl
  have hevents : Json.array? (batch.toJson.get? (js "events")) = some batch.events := rfl
  have hown : batch.events.any (isOtherInstance C (C.lower mappedId)) = false := by
    rw [List.any_eq_false]
    intro event hevent
    obtain ⟨e, rfl⟩ := (batch.produced event hevent).generated hconfig
    have hid : string? ((e.toJson config.instanceId).get? (js "instance_id"))
        = some config.instanceId := rfl
    show ¬((string? ((e.toJson config.instanceId).get? (js "instance_id"))).any
      fun instanceId => C.lower instanceId ≠ C.lower mappedId) = true
    rw [hid, Option.any_some, hlower]
    simp
  unfold canActivate
  rw [hkey, hfilter]
  simp only [hstart, hequals, hevents, hown, Bool.not_true, Bool.false_eq_true, if_false]

/-- What the service answers rejects nothing. -/
theorem handle_generated (J : JsonText) (L : StandardLibraries) (P : StandardPostgres)
    (reachable : Bool) (db : Database) : ∃ answer,
      (handle J L.toLibraries P.toPostgres reachable batch.toJson db.toTables).1
        = answerResponse J answer ∧
      (answer = .unavailable ∨ ∃ response, answer = .ok response ∧ response.rejected = []) := by
  obtain ⟨dto, hcopy, hholds, hbatchId, hevents⟩ := batch.holds hconfig L
  obtain ⟨accepted, haccepted⟩ := validateEvents_of_accepted (L := L.toLibraries) 0
    fun event hevent => by
      obtain ⟨e, rfl⟩ := (batch.produced event hevent).generated hconfig
      obtain ⟨normal, hvalid, -⟩ := e.accepted L P hconfig.instanceId
      exact ⟨normal, hvalid⟩
  have hsync : (L.validateSync eventBatchRequestDto dto).isEmpty = true :=
    isEmpty_validateSync.mpr hholds
  refine ⟨(ingest L.toLibraries P.toPostgres reachable batch.batchId batch.events db.toTables).1,
    ?_, ?_⟩
  · simp only [handle, hcopy, hsync, hbatchId, hevents, string?, Json.array?, Bool.not_true,
      Bool.false_eq_true, if_false]
  · by_cases hcommits : Commits P.toPostgres reachable db.toTables accepted
    · rw [ingest_of_commits haccepted hcommits]
      exact .inr ⟨_, rfl, rfl⟩
    · rw [ingest_of_not_commits haccepted hcommits]
      exact .inl rfl

/-- The answer to a batch from a sender with the right key. -/
theorem post_generated (J : JsonText) (L : StandardLibraries) (P : StandardPostgres)
    (keyed : CorrectlyKeyed C config) (limited reachable : Bool) (db : Database)
    {response : HttpResponse}
    (h : response = (post C J L.toLibraries P.toPostgres keyed.server.toEnv limited reachable
      (some keyed.header) (.json (J.stringify batch.toJson)) db.toTables).1) :
    response.status ∈ [200, 413, 429, 503] ∧ (response.status = 200 →
      ∃ answer : EventBatchResponse, response.body = J.stringify answer.toJson ∧
        answer.rejected = []) := by
  have hparse : parseBody J (.json (J.stringify batch.toJson)) = some batch.toJson :=
    parseBody_stringify (batch.plain hconfig)
  have hguard := canActivate_generated batch hconfig keyed
  rw [post, hparse] at h
  simp only [Option.bind_some, hguard, Option.none_or, receive, hparse] at h
  -- 413, then 429, else the handler's own answer
  split_ifs at h with hsize hlimited
  · subst h
    exact ⟨by simp [respond], by simp [respond]⟩
  · subst h
    exact ⟨by simp [Refusal.response, respond], by simp [Refusal.response, respond]⟩
  · obtain ⟨answer, hhandle, hanswer⟩ := handle_generated batch hconfig J L P reachable db
    rw [hhandle] at h
    rcases hanswer with rfl | ⟨ok, rfl, hrejected⟩
    · subst h
      exact ⟨by simp [answerResponse, respond], by simp [answerResponse, respond]⟩
    · subst h
      exact ⟨by simp [answerResponse, respond], fun _ => ⟨ok, rfl, hrejected⟩⟩

end Batches

/-- **Generated traffic.** For every configuration that was loaded, whatever the source of random
numbers, UUIDs and times, a generated event is accepted and its values lie in the domains of
their columns, a batch of such events passes the check of its structure, and the answer to a
sender with the right key is neither a 400 nor a rejection. -/
theorem generated_traffic (M : JsMath) (config : LoadedConfig) (L : StandardLibraries)
    (P : StandardPostgres) :
    (∀ event, Produced M config.toSenderConfig event → ∃ normal,
      validateEvent L.toLibraries event = some (.accepted normal) ∧ SafeIntegers normal ∧
        InDomain P.toPostgres normal) ∧
    (∀ (J : JsonText) (batch : GeneratedBatch M config.toSenderConfig), ∃ dto,
      J.parse (serializeBatch J batch.batchId (toISOString batch.sentAt) batch.events)
        = some batch.toJson ∧ L.plainToInstance batch.toJson = some dto ∧
      eventBatchRequestDto.holds L.toStringChecks dto) ∧
    (∀ (J : JsonText) (C : LetterCase) (batch : GeneratedBatch M config.toSenderConfig)
      (keyed : CorrectlyKeyed C config.toSenderConfig) (limited reachable : Bool) (db : Database)
      (response : HttpResponse),
      response = (post C J L.toLibraries P.toPostgres keyed.server.toEnv limited reachable
        (some keyed.header)
        (.json (serializeBatch J batch.batchId (toISOString batch.sentAt) batch.events))
        db.toTables).1 →
      response.status ∈ [200, 413, 429, 503] ∧ (response.status = 200 →
        ∃ answer : EventBatchResponse, response.body = J.stringify answer.toJson ∧
          answer.rejected = [])) := by
  have hconfig := config.checked
  refine ⟨fun event hevent => ?_, fun J batch => ?_, fun J C batch keyed limited reachable db _ h =>
    post_generated batch hconfig J L P keyed limited reachable db h⟩
  · obtain ⟨e, rfl⟩ := hevent.generated hconfig
    exact e.accepted L P hconfig.instanceId
  · obtain ⟨dto, hcopy, hholds, -⟩ := batch.holds hconfig L
    exact ⟨dto, J.parse_stringify _ (batch.plain hconfig), hcopy, hholds⟩

/-! ### One event in a second -/

def sampleSenderEnv : SenderEnv where
  instanceId := some (js "11111111-1111-4111-8111-111111111111")
  apiKey := some (js "key")
  targetUrl := some (js "https://ingest.example/")
  users := none
  eventRate := none
  sendRateLimit := none
  outboxDir := none

def sampleSenderConfig : LoadedConfig where
  instanceId := js "11111111-1111-4111-8111-111111111111"
  apiKey := js "key"
  targetUrl := js "https://ingest.example"
  users := 30
  eventRate := 1 / 2
  sendRateLimit := 60
  outboxDir := js "sender/outbox-data"
  doubles := Doubles.exact
  parseUrl := fun _ => some ⟨js "https:", [], [], [], []⟩
  env := sampleSenderEnv
  loaded := by decide +kernel

/-- `Math.exp(-15)`, to four digits. -/
def sampleMath : JsMath := { Doubles.exact with exp := fun _ => 3059 / 10 ^ 10 }

/-- The product of the first two random numbers is 0. -/
def sampleSource : Source where
  random := fun i => if i = 0 then 1 / 2 else 0
  random_unit := by
    intro i
    split_ifs <;> norm_num
  uuid := fun _ => js "22222222-2222-4222-8222-222222222222"
  uuid_v4 := by
    intro i
    decide +kernel
  now := fun _ => 1767225600000
  now_le := by
    intro i
    decide

theorem generated_traffic_sample : ∃ event,
    Produced sampleMath sampleSenderConfig.toSenderConfig event ∧ ∃ normal,
      validateEvent standardLibraries.toLibraries event = some (.accepted normal) ∧
        SafeIntegers normal ∧ InDomain standardPostgres.toPostgres normal := by
  have htick : ((tick sampleMath (EventGenerator.new sampleSenderConfig.toSenderConfig
      sampleSource 0).1 10 1000 sampleSource 0).1.map List.length) = some 1 := by decide +kernel
  obtain ⟨events, hevents, hlength⟩ := Option.map_eq_some_iff.mp htick
  obtain ⟨event, rfl⟩ := List.length_eq_one_iff.mp hlength
  have hproduced : Produced sampleMath sampleSenderConfig.toSenderConfig event :=
    ⟨sampleSource, 0, 0, 10, 1000, [event], hevents, List.mem_singleton_self event⟩
  exact ⟨event, hproduced, (generated_traffic sampleMath sampleSenderConfig standardLibraries
    standardPostgres).1 event hproduced⟩

end Sender
