/-
The receiver's side of a request.

* `EventBatchResponse.toJson` — the body of a 200;
* `Content`, `parseBody` — a body with its headers, and what the parser makes of it;
* `receive` — one request from the body limit to the answer; whatever the guards decide is a
  parameter;
* `receive_ok` — a 200 is the answer of `ingest` to the events of the body.
-/
import LogStack.Ingestion

open KeyedInsert
open Json (string? string?_eq_some array? array?_eq_some)

namespace Ingestion

def MAX_BODY_BYTES : ℕ := 4 * 1024 * 1024

structure HttpResponse where
  status : ℕ
  body : Bytes

/-! ### Bodies -/

def integer (z : ℤ) : Json := .num (.fin z)

/-- `{ index, event_id?, code, message }` -/
def RejectedEvent.toJson (r : RejectedEvent) : Json :=
  .obj ([(js "index", .nat r.index)]
    ++ (r.eventId.elim [] fun id => [(js "event_id", .str id)])
    ++ [(js "code", .str r.code), (js "message", .str r.message)])

def EventBatchResponse.toJson (r : EventBatchResponse) : Json :=
  .obj [(js "batch_id", .str r.batchId),
    (js "received_count", .nat r.receivedCount),
    (js "accepted_count", .nat r.acceptedCount),
    (js "stored_count", .nat r.storedCount),
    (js "duplicate_count", integer r.duplicateCount),
    (js "order_duplicate_count", integer r.orderDuplicateCount),
    (js "rejected_count", .nat r.rejectedCount),
    (js "rejected", .arr (r.rejected.map RejectedEvent.toJson))]

section Bodies

variable (r : RejectedEvent) (response : EventBatchResponse)

theorem RejectedEvent.get?_index : r.toJson.get? (js "index") = some (.nat r.index) := by
  obtain ⟨index, eventId, code, message⟩ := r
  cases eventId <;> rfl

theorem RejectedEvent.get?_event_id :
    r.toJson.get? (js "event_id") = r.eventId.map Json.str := by
  obtain ⟨index, eventId, code, message⟩ := r
  cases eventId <;> rfl

theorem RejectedEvent.get?_code : r.toJson.get? (js "code") = some (.str r.code) := by
  obtain ⟨index, eventId, code, message⟩ := r
  cases eventId <;> rfl

theorem RejectedEvent.get?_message : r.toJson.get? (js "message") = some (.str r.message) := by
  obtain ⟨index, eventId, code, message⟩ := r
  cases eventId <;> rfl

theorem RejectedEvent.plain : r.toJson.Plain := by
  obtain ⟨index, eventId, code, message⟩ := r
  have hshort : [js "index", js "code", js "message"].Pairwise
      (fun k l => JsString.keyBefore k l = true) := by decide +kernel
  have hlong : [js "index", js "event_id", js "code", js "message"].Pairwise
      (fun k l => JsString.keyBefore k l = true) := by decide +kernel
  cases eventId with
  | none =>
    refine Json.plain_obj.mpr ⟨hshort, fun f hf => ?_⟩
    simp only [Option.elim_none, List.append_nil, List.cons_append, List.nil_append,
      List.mem_cons, List.not_mem_nil, or_false] at hf
    rcases hf with rfl | rfl | rfl
    · exact Json.plain_nat index
    · exact Json.plain_str code
    · exact Json.plain_str message
  | some id =>
    refine Json.plain_obj.mpr ⟨hlong, fun f hf => ?_⟩
    simp only [Option.elim_some, List.cons_append, List.nil_append, List.mem_cons,
      List.not_mem_nil, or_false] at hf
    rcases hf with rfl | rfl | rfl | rfl
    · exact Json.plain_nat index
    · exact Json.plain_str id
    · exact Json.plain_str code
    · exact Json.plain_str message

theorem EventBatchResponse.plain : response.toJson.Plain := by
  have hkeys : [js "batch_id", js "received_count", js "accepted_count", js "stored_count",
      js "duplicate_count", js "order_duplicate_count", js "rejected_count",
      js "rejected"].Pairwise (fun k l => JsString.keyBefore k l = true) := by decide +kernel
  refine Json.plain_obj.mpr ⟨hkeys, fun f hf => ?_⟩
  simp only [List.mem_cons, List.not_mem_nil, or_false] at hf
  rcases hf with rfl | rfl | rfl | rfl | rfl | rfl | rfl | rfl
  · exact Json.plain_str response.batchId
  · exact Json.plain_nat response.receivedCount
  · exact Json.plain_nat response.acceptedCount
  · exact Json.plain_nat response.storedCount
  · trivial
  · trivial
  · exact Json.plain_nat response.rejectedCount
  · refine Json.plain_arr.mpr fun j hj => ?_
    obtain ⟨r, -, rfl⟩ := List.mem_map.mp hj
    exact r.plain

end Bodies

theorem nonNegativeInteger_integer {z : ℤ} (h : 0 ≤ z) :
    Json.nonNegativeInteger (some (integer z)) = some z.toNat := by
  rw [integer, Json.nonNegativeInteger, JsNumber.toInt?_ofInt]
  exact if_pos h

/-- `{ error: { code, message } }` -/
def errorBody (code message : JsString) : Json :=
  .obj [(js "error", .obj [(js "code", .str code), (js "message", .str message)])]

def eventBatchRequestDto : Dto := [
  (js "batch_id", [.isUUID]),
  (js "sent_at", [.isISO8601 false]),
  (js "events", [.isArray, .arraySize 1 500])]

/-! ### A request -/

variable (J : JsonText) (L : Libraries) (pg : Postgres)

def respond (status : ℕ) (body : Json) : HttpResponse := ⟨status, J.stringify body⟩

def unexpected : HttpResponse :=
  respond J 500 (errorBody (js "INTERNAL_ERROR") (js "unexpected server error"))

/-- How an answer of the service is sent. -/
def answerResponse : Answer → HttpResponse
  | .ok response => respond J 200 response.toJson
  | .unavailable => respond J 503
      (errorBody (js "STORAGE_UNAVAILABLE") (js "temporary storage failure, retry later"))
  | .failed => unexpected J

/-- The global validation pipe, then the controller: structural errors of the batch are a 400. -/
def handle (reachable : Bool) (request : Json) (db : Tables) : HttpResponse × Tables :=
  match L.plainToInstance request with
  | none => (unexpected J, db)
  | some dto =>
    let errors := L.validateSync eventBatchRequestDto dto
    if !errors.isEmpty then
      (respond J 400 (errorBody (js "MALFORMED_REQUEST") (firstConstraintMessage errors)), db)
    else
      match string? (dto.get? (js "batch_id")), array? (dto.get? (js "events")) with
      | some batchId, some events =>
        let (answer, db') := ingest L pg reachable batchId events db
        (answerResponse J answer, db')
      -- the pipe admits no other types
      | _, _ => (unexpected J, db)

/-- The body of a request, and what its headers say: whether its type is `application/json`, and
whether its length is declared. -/
structure Content where
  isJson : Bool
  hasLength : Bool
  bytes : Bytes

/-- What the sender and the scripts post. -/
def Content.json (bytes : Bytes) : Content := ⟨true, true, bytes⟩

/-- A chunked body of another type is left to the proxy, however long it is. -/
def Content.TooLarge (content : Content) : Prop :=
  MAX_BODY_BYTES < content.bytes.length ∧ (content.hasLength || content.isJson) = true

instance (content : Content) : Decidable content.TooLarge := inferInstanceAs (Decidable (_ ∧ _))

/-- `json({ limit })`: the value of a body, an object or an array. A body that it skips, empty or
of another type, is an empty object to the guards and to the pipe. -/
def parseBody (content : Content) : Option Json :=
  if !content.isJson || content.bytes.isEmpty then some (.obj [])
  else
    match J.parse content.bytes with
    | some (.obj fields) => some (.obj fields)
    | some (.arr items) => some (.arr items)
    | _ => none

section Content

variable {J} {content : Content} {bytes : Bytes} {request : Json}

@[simp]
theorem Content.tooLarge_json :
    (Content.json bytes).TooLarge ↔ MAX_BODY_BYTES < bytes.length := and_iff_left rfl

theorem parseBody_cases (h : parseBody J content = some request) :
    request = .obj [] ∨ J.parse content.bytes = some request := by
  unfold parseBody at h
  split_ifs at h
  · exact .inl (Option.some.inj h).symm
  split at h
  · rename_i fields hobj
    exact .inr (hobj.trans h)
  · rename_i items harr
    exact .inr (harr.trans h)
  · cases h

/-- An object that is posted as JSON is read back. -/
theorem parseBody_stringify {fields : List (JsString × Json)} (h : (Json.obj fields).Plain) :
    parseBody J (.json (J.stringify (.obj fields))) = some (.obj fields) := by
  have hsome : (J.stringify (.obj fields)).isEmpty = false := by rw [J.stringify_obj]; rfl
  simp only [parseBody, Content.json, Bool.not_true, Bool.false_or, hsome, Bool.false_eq_true,
    if_false, J.parse_stringify _ h]

end Content

/-- The ways in which `ApiKeyGuard` and `RateLimitGuard` refuse a request. -/
inductive Refusal where
  | unauthorized
  | instanceMismatch
  | rateLimited

def Refusal.response : Refusal → HttpResponse
  | unauthorized => respond J 401
      (errorBody (js "UNAUTHORIZED") (js "missing or invalid API key"))
  | instanceMismatch => respond J 403
      (errorBody (js "INSTANCE_MISMATCH") (js "instance_id in batch does not match the API key"))
  | rateLimited => respond J 429
      (errorBody (js "RATE_LIMITED") (js "too many requests, retry after the window resets"))

/-- One request: the body limit, the parser, the guards, the pipe, the controller. What the
guards decide depends on headers and on time, and is a parameter. -/
def receive (reachable : Bool) (refusal : Option Refusal) (content : Content) (db : Tables) :
    HttpResponse × Tables :=
  if content.TooLarge then
    (respond J 413 (errorBody (js "PAYLOAD_TOO_LARGE") (js "request body exceeds 4MB limit")), db)
  else
    match parseBody J content with
    | none => (respond J 400
        (errorBody (js "MALFORMED_REQUEST") (js "request body could not be parsed as JSON")), db)
    | some request =>
      match refusal with
      | some refusal => (refusal.response J, db)
      | none => handle J L pg reachable request db

/-! ### What a 200 is -/

variable {J L pg} {reachable : Bool} {refusal : Option Refusal} {content : Content}
  {request dto : Json} {db db' : Tables} {r : HttpResponse}

/-- The service was asked, and answered with a response. -/
structure Served (J : JsonText) (L : Libraries) (pg : Postgres) (reachable : Bool)
    (request : Json) (db : Tables) (r : HttpResponse) (db' : Tables) : Prop where
  admitted : ∃ dto batchId events response, L.plainToInstance request = some dto ∧
    eventBatchRequestDto.holds L.toStringChecks dto ∧
    dto.get? (js "batch_id") = some (.str batchId) ∧
    dto.get? (js "events") = some (.arr events) ∧
    ingest L pg reachable batchId events db = (.ok response, db') ∧
    r.body = J.stringify response.toJson

theorem handle_ok (h : handle J L pg reachable request db = (r, db')) (hstatus : r.status = 200) :
    Served J L pg reachable request db r db' := by
  rw [handle] at h
  cases hcopy : L.plainToInstance request with
  | none =>
    rw [hcopy] at h
    obtain ⟨rfl, -⟩ := Prod.mk.inj h
    exact absurd hstatus (by simp [unexpected, respond])
  | some dto =>
    simp only [hcopy] at h
    split_ifs at h with hsync
    · obtain ⟨rfl, -⟩ := Prod.mk.inj h
      exact absurd hstatus (by simp [respond])
    split at h
    · rename_i batchId events hbatch hevents
      obtain ⟨rfl, rfl⟩ := Prod.mk.inj h
      cases hanswer : (ingest L pg reachable batchId events db).1 with
      | ok response =>
        exact ⟨dto, batchId, events, response, hcopy,
          isEmpty_validateSync.mp (by simpa using hsync), string?_eq_some.mp hbatch,
          array?_eq_some.mp hevents, Prod.ext hanswer rfl, rfl⟩
      | unavailable => exact absurd hstatus (by simp [hanswer, answerResponse, respond])
      | failed => exact absurd hstatus (by simp [hanswer, answerResponse, unexpected, respond])
    · obtain ⟨rfl, -⟩ := Prod.mk.inj h
      exact absurd hstatus (by simp [unexpected, respond])

/-- The pipe admits no empty object. -/
theorem Served.ne_empty (h : Served J L pg reachable request db r db') : request ≠ .obj [] := by
  rintro rfl
  obtain ⟨dto, _, _, _, hcopy, -, -, hevents, -⟩ := h.admitted
  obtain ⟨value, hvalue, -⟩ := (L.copied _ _ hcopy).get? hevents
  cases hvalue

/-- **A 200** is the service's answer to the value of the body. -/
theorem receive_ok (h : receive J L pg reachable refusal content db = (r, db'))
    (hstatus : r.status = 200) :
    ∃ request, J.parse content.bytes = some request ∧
      Served J L pg reachable request db r db' := by
  rw [receive] at h
  split_ifs at h with hsize
  · obtain ⟨rfl, -⟩ := Prod.mk.inj h
    exact absurd hstatus (by simp [respond])
  cases hparse : parseBody J content with
  | none =>
    rw [hparse] at h
    obtain ⟨rfl, -⟩ := Prod.mk.inj h
    exact absurd hstatus (by simp [respond])
  | some request =>
    rw [hparse] at h
    cases refusal with
    | some refusal =>
      obtain ⟨rfl, -⟩ := Prod.mk.inj h
      cases refusal <;> exact absurd hstatus (by simp [Refusal.response, respond])
    | none =>
      have hserved := handle_ok h hstatus
      exact ⟨request, (parseBody_cases hparse).resolve_left hserved.ne_empty, hserved⟩

end Ingestion
