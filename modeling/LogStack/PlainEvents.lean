/-
Events of numbers and texts, as a generator makes them.

* `Sale.flat`, `Content.flat` — payloads without depth;
* `PlainEvent` — an event whose values are in the bounds that the receiver checks;
* `PlainEvent.room` — it is short;
* `PlainEvent.accepted` — it passes validation, and its values fit their columns;
* `Describes` — what the service makes of it.
-/
import LogStack.CompactJson
import LogStack.MetricEvidence
import LogStack.RequestBody
import LogStack.StandardLibraries

open Calendar (MAX_DAY toISOString)
open Ingestion KeyedInsert
open Json (string? integer?)

namespace Sender

/-! ### Payloads -/

theorem Sale.flat (sale : Sale) : Flat sale.payload := by
  refine ⟨by simp only [Sale.payload, List.map]; decide +kernel, ?_⟩
  simp only [Sale.payload, List.forall_mem_cons]
  have hquantity := sale.quantity_range.2
  have hamount := sale.amountMinor_le
  exact ⟨.str sale.orderId_text.1 (sale.orderId_text.2.2.trans (by decide)),
    .str sale.productId_text.1 (sale.productId_text.2.2.trans (by decide)),
    .str sale.productName_text.1 sale.productName_text.2.2, .nat (by omega), .nat (by omega),
    .str (by decide +kernel) (by decide), by simp⟩

def Sale.purchase (sale : Sale) : Purchase :=
  ⟨sale.orderId, sale.productId, sale.productName, sale.quantity, sale.amountMinor, js "KRW"⟩

/-- A type is that of a purchase just when the payload is a purchase's. -/
theorem Content.type {type : JsString} {payload : List (JsString × Json)}
    (h : Content type payload) : ∃ t : EventType, type = t.name ∧
      (t ≠ .shopPurchase ∨ t = .shopPurchase ∧ ∃ sale : Sale, payload = sale.payload) := by
  cases h with
  | plain other flat => exact ⟨_, rfl, .inl other⟩
  | sale sale => exact ⟨_, rfl, .inr ⟨rfl, sale, rfl⟩⟩

theorem Content.flat {type : JsString} {payload : List (JsString × Json)}
    (h : Content type payload) : Flat payload := by
  cases h with
  | plain other flat => exact flat
  | sale sale => exact sale.flat

section Flat

variable {payload : List (JsString × Json)} {j : Json}

theorem Simple.ordinary (h : Simple j) : Ingestion.ordinary 0 j = true := by
  cases h with
  | nat _ => rfl
  | str _ _ => rfl

theorem Simple.plain (h : Simple j) : j.Plain := by
  cases h with
  | nat _ => exact Json.plain_nat _
  | str _ _ => exact Json.plain_str _

theorem Simple.jsonb (h : Simple j) : jsonbValue j = true := by
  cases h with
  | nat _ => rfl
  | str hs _ => exact jsonbString_text hs

theorem Flat.ordinary (h : Flat payload) : ordinary 1 (.obj payload) = true := by
  rw [Ingestion.ordinary, List.all_eq_true]
  intro f hf
  have hkey := (h.keys.2.1 f.1 (List.mem_map_of_mem hf)).1
  simp only [hkey, (h.values f hf).ordinary, not_false_eq_true, decide_true, Bool.and_self]

theorem Flat.plain (h : Flat payload) : (Json.obj payload).Plain :=
  Json.plain_obj.mpr ⟨h.keys.1, fun f hf => (h.values f hf).plain⟩

theorem Flat.jsonb (h : Flat payload) : jsonbValue (.obj payload) = true := by
  have hfields : ∀ fields : List (JsString × Json),
      (∀ f ∈ fields, Text f.1 ∧ Simple f.2) → jsonbFields fields = true := by
    intro fields hall
    induction fields with
    | nil => rfl
    | cons f fields ih =>
      obtain ⟨⟨hkey, hvalue⟩, hrest⟩ := List.forall_mem_cons.mp hall
      rw [jsonbFields, jsonbString_text hkey, hvalue.jsonb, ih hrest]
      rfl
  exact hfields payload fun f hf => ⟨(h.keys.2.1 f.1 (List.mem_map_of_mem hf)).2, h.values f hf⟩

theorem length_text_str {s : JsString} {n : ℕ} (h : s.length ≤ n) :
    (Json.str s).text.length ≤ 6 * n + 2 := by
  have hquote := Json.length_quote_le s
  show (Json.quote s).length ≤ 6 * n + 2
  omega

theorem length_text_nat {n : ℕ} (h : n ≤ 2 ^ 53) : (Json.nat n).text.length ≤ 16 := by
  rw [Json.text_nat]
  exact length_decimal_le (by decide) (lt_of_le_of_lt h (by decide))

theorem Simple.length_text (h : Simple j) : j.text.length ≤ 770 := by
  cases h with
  | nat hn => exact (length_text_nat hn).trans (by decide)
  | str _ hshort => exact length_text_str hshort

theorem Flat.length_text (h : Flat payload) : (Json.obj payload).text.length ≤ 5798 := by
  have hlength := h.keys.2.2.1
  have hfields : ∀ f ∈ payload, f.1.length ≤ 32 ∧ f.2.text.length ≤ 770 := fun f hf =>
    ⟨h.keys.2.2.2 f.1 (List.mem_map_of_mem hf), (h.values f hf).length_text⟩
  have htext := Json.length_obj_le hfields
  rw [List.length_map] at hlength
  omega

end Flat

/-! ### Events -/

structure PlainEvent where
  instanceId : JsString
  eventId : JsString
  userId : ℕ
  characterId : ℕ
  sessionId : JsString
  channelId : JsString
  ms : ℕ
  type : JsString
  payload : List (JsString × Json)
  instanceId_uuid : isInstanceUuid instanceId = true
  eventId_v4 : isUuidV4 eventId = true
  userId_lt : userId < 2 ^ 53
  characterId_lt : characterId < 2 ^ 53
  sessionId_text : Text sessionId ∧ 1 ≤ sessionId.length ∧ sessionId.length ≤ 64
  channelId_text : Text channelId ∧ 1 ≤ channelId.length ∧ channelId.length ≤ 64
  ms_le : ms / 86400000 ≤ MAX_DAY
  content : Content type payload

namespace PlainEvent

variable (e : PlainEvent)

def toJson : Json := .obj [
  (js "instance_id", .str e.instanceId),
  (js "event_id", .str e.eventId),
  (js "user_id", .nat e.userId),
  (js "character_id", .nat e.characterId),
  (js "session_id", .str e.sessionId),
  (js "channel_id", .str e.channelId),
  (js "occurred_at", .str (toISOString e.ms)),
  (js "event_type", .str e.type),
  (js "payload", .obj e.payload)]

theorem ordinary : ordinary 2 e.toJson = true := by
  have hkeys : ∀ key ∈ [js "instance_id", js "event_id", js "user_id", js "character_id",
      js "session_id", js "channel_id", js "occurred_at", js "event_type", js "payload"],
      decide (key ∉ inheritedNames) = true := by decide +kernel
  simp only [List.forall_mem_cons] at hkeys
  simp only [toJson, Ingestion.ordinary, List.all_cons, List.all_nil, hkeys, Json.nat,
    Bool.and_true, Bool.true_and]
  exact e.content.flat.ordinary

theorem plain : e.toJson.Plain := by
  refine Json.plain_obj.mpr ⟨by simp only [List.map]; decide +kernel, ?_⟩
  simp only [List.forall_mem_cons]
  exact ⟨Json.plain_str _, Json.plain_str _, Json.plain_nat _, Json.plain_nat _, Json.plain_str _,
    Json.plain_str _, Json.plain_str _, Json.plain_str _, e.content.flat.plain, by simp⟩

theorem length_text : e.toJson.text.length ≤ 54000 := by
  obtain ⟨-, hevent⟩ := isUuidV4_spec e.eventId_v4
  obtain ⟨t, htype, -⟩ := e.content.type
  have hinstance : e.instanceId.length = 36 := by
    have huuid := e.instanceId_uuid
    rw [isInstanceUuid, Bool.and_eq_true, decide_eq_true_iff] at huuid
    exact huuid.1
  have hname : e.type.length ≤ 64 := by
    rw [htype]
    cases t <;> decide
  have htime : (toISOString e.ms).length = 24 := rfl
  have hstr : ∀ {s : JsString}, s.length ≤ 64 → (Json.str s).text.length ≤ 5798 := fun h =>
    (length_text_str h).trans (by decide)
  have hnat : ∀ {n : ℕ}, n < 2 ^ 53 → (Json.nat n).text.length ≤ 5798 := fun h =>
    (length_text_nat h.le).trans (by decide)
  refine (Json.length_obj_le (m := 32) (k := 5798) ?_).trans
    (show 9 * (6 * 32 + 5798 + 4) + 2 ≤ 54000 by decide)
  have hkeys : ∀ key ∈ [js "instance_id", js "event_id", js "user_id", js "character_id",
      js "session_id", js "channel_id", js "occurred_at", js "event_type", js "payload"],
      key.length ≤ 32 := by decide +kernel
  simp only [List.forall_mem_cons] at hkeys ⊢
  simp only [hkeys, true_and]
  exact ⟨hstr (by omega), hstr (by omega), hnat e.userId_lt, hnat e.characterId_lt,
    hstr e.sessionId_text.2.2, hstr e.channelId_text.2.2, hstr (by omega), hstr hname,
    e.content.flat.length_text, by simp⟩

/-- A request has room for it. -/
theorem room : batchBodyByteLength compactJson [e.toJson] ≤ MAX_BODY_BYTES := by
  have hempty : EMPTY_BATCH_BODY_BYTES compactJson ≤ 1000 := by decide +kernel
  have hlength : (compactJson.stringify e.toJson).length ≤ 54000 := by
    show (e.toJson.text.map UInt16.toUInt8).length ≤ 54000
    rw [List.length_map]
    exact e.length_text
  have hbytes : batchBodyByteLength compactJson [e.toJson]
      = EMPTY_BATCH_BODY_BYTES compactJson + (compactJson.stringify e.toJson).length := rfl
  rw [hbytes, MAX_BODY_BYTES]
  omega

/-- What the service makes of it. -/
def normalized (type : EventType) : NormalizedEvent where
  eventId := e.eventId.toLowerCase
  instanceId := e.instanceId.toLowerCase
  eventType := type
  userId := e.userId
  characterId := e.characterId
  sessionId := e.sessionId
  channelId := e.channelId
  payload := .obj e.payload
  occurredAt := toISOString e.ms
  purchase := none

variable {e} {L : StandardLibraries} {P : StandardPostgres} {envelope : Json}

theorem holds_envelope {type : EventType} (htype : e.type = type.name)
    (hget : ∀ key ∉ inheritedNames, envelope.get? key = e.toJson.get? key) :
    eventEnvelopeDto.holds L.toStringChecks envelope ∧
      normalize envelope = some (e.normalized type) := by
  -- none of the keys read here is inherited from the prototype
  have hinstanceId : envelope.get? (js "instance_id") = some (.str e.instanceId) :=
    (hget _ (by decide +kernel)).trans rfl
  have heventId : envelope.get? (js "event_id") = some (.str e.eventId) :=
    (hget _ (by decide +kernel)).trans rfl
  have heventType : envelope.get? (js "event_type") = some (.str type.name) :=
    htype ▸ (hget _ (by decide +kernel)).trans rfl
  have huserId : integer? (envelope.get? (js "user_id")) = some (e.userId : ℤ) := by
    rw [hget _ (by decide +kernel)]
    exact JsNumber.toInt?_ofInt e.userId
  have hcharacterId : integer? (envelope.get? (js "character_id")) = some (e.characterId : ℤ) := by
    rw [hget _ (by decide +kernel)]
    exact JsNumber.toInt?_ofInt e.characterId
  have hsessionId : envelope.get? (js "session_id") = some (.str e.sessionId) :=
    (hget _ (by decide +kernel)).trans rfl
  have hchannelId : envelope.get? (js "channel_id") = some (.str e.channelId) :=
    (hget _ (by decide +kernel)).trans rfl
  have hpayload : envelope.get? (js "payload") = some (.obj e.payload) :=
    (hget _ (by decide +kernel)).trans rfl
  have hoccurredAt : envelope.get? (js "occurred_at") = some (.str (toISOString e.ms)) :=
    (hget _ (by decide +kernel)).trans rfl
  constructor
  · simp only [eventEnvelopeDto, Dto.holds_cons, Dto.holds_nil, List.forall_mem_cons,
      List.not_mem_nil, false_imp_iff, implies_true, and_true, Constraint.holds, hinstanceId,
      heventId, heventType, huserId, hcharacterId, hsessionId, hchannelId, hpayload, hoccurredAt,
      string?, Option.any_some, Option.isSome_some, isObject, L.measure_text _ e.sessionId_text.1,
      L.measure_text _ e.channelId_text.1, Bool.and_eq_true, decide_eq_true_iff, true_and]
    exact ⟨L.isUUID_of _ e.instanceId_uuid, L.isUUID_of _ (isUuidV4_spec e.eventId_v4).1,
      List.mem_map_of_mem (mem_eventTypes type), e.sessionId_text.2, e.channelId_text.2,
      L.isISO8601_toISOString true _ e.ms_le, hasZoneDesignator_toISOString _⟩
  · refine normalize_eq_some.mpr ?_
    simp only [hinstanceId, heventId, heventType, huserId, hcharacterId, hsessionId, hchannelId,
      hpayload, hoccurredAt, string?, Option.map_some, normalized, true_and]

/-- The instance of a purchase's payload passes its check. -/
theorem holds_payload (L : StandardLibraries) (sale : Sale) {payloadDto : Json}
    (hget : ∀ key ∉ inheritedNames,
      payloadDto.get? key = (Json.obj sale.payload).get? key) :
    shopPurchasePayloadDto.holds L.toStringChecks payloadDto ∧
      purchaseOf payloadDto = some sale.purchase := by
  have horderId : payloadDto.get? (js "order_id") = some (.str sale.orderId) :=
    (hget _ (by decide +kernel)).trans rfl
  have hproductId : payloadDto.get? (js "product_id") = some (.str sale.productId) :=
    (hget _ (by decide +kernel)).trans rfl
  have hproductName : payloadDto.get? (js "product_name") = some (.str sale.productName) :=
    (hget _ (by decide +kernel)).trans rfl
  have hquantity : integer? (payloadDto.get? (js "quantity")) = some (sale.quantity : ℤ) := by
    rw [hget _ (by decide +kernel)]
    exact JsNumber.toInt?_ofInt sale.quantity
  have hamount : integer? (payloadDto.get? (js "amount_minor")) = some (sale.amountMinor : ℤ) := by
    rw [hget _ (by decide +kernel)]
    exact JsNumber.toInt?_ofInt sale.amountMinor
  have hcurrency : payloadDto.get? (js "currency") = some (.str (js "KRW")) :=
    (hget _ (by decide +kernel)).trans rfl
  have hcode : isCurrencyCode (js "KRW") = true := by decide +kernel
  constructor
  · simp only [shopPurchasePayloadDto, Dto.holds_cons, Dto.holds_nil, List.forall_mem_cons,
      List.not_mem_nil, false_imp_iff, implies_true, and_true, Constraint.holds, horderId,
      hproductId, hproductName, hcurrency, hquantity, hamount, string?, Option.any_some,
      Option.isSome_some, L.measure_text _ sale.orderId_text.1,
      L.measure_text _ sale.productId_text.1, L.measure_text _ sale.productName_text.1, hcode,
      Bool.and_eq_true, decide_eq_true_iff, true_and, atLeast_eq_true hquantity,
      atLeast_eq_true hamount]
    exact ⟨sale.orderId_text.2, sale.productId_text.2, sale.productName_text.2,
      by exact_mod_cast sale.quantity_range.1, Int.natCast_nonneg _⟩
  · refine purchaseOf_eq_some.mpr ?_
    simp only [horderId, hproductId, hproductName, hquantity, hamount, hcurrency, string?,
      Sale.purchase, true_and]

/-- The columns take what the service makes of the event. -/
theorem inDomain (P : StandardPostgres) {event : NormalizedEvent}
    (hvalid : validateEvent L.toLibraries e.toJson = some (.accepted event))
    {type : EventType} (hevent : event = { e.normalized type with purchase := event.purchase })
    (hpurchase : ∀ p ∈ event.purchase, ∃ sale : Sale, p = sale.purchase) :
    SafeIntegers event ∧ InDomain P.toPostgres event := by
  have huser := e.userId_lt
  have hcharacter := e.characterId_lt
  have hamount : ∀ p ∈ event.purchase, p.amountMinor < 2 ^ 53 := by
    intro p hp
    obtain ⟨sale, rfl⟩ := hpurchase p hp
    have hle := sale.amountMinor_le
    show (sale.amountMinor : ℤ) < 2 ^ 53
    omega
  have hsafe : SafeIntegers event := by
    refine ⟨?_, ?_, hamount⟩
    · rw [hevent]
      show -2 ^ 53 < (e.userId : ℤ) ∧ (e.userId : ℤ) < 2 ^ 53
      omega
    · rw [hevent]
      show -2 ^ 53 < (e.characterId : ℤ) ∧ (e.characterId : ℤ) < 2 ^ 53
      omega
  obtain ⟨hchecked, hpchecked⟩ := checked_of_accepted hvalid
  -- what the checks leave open: lengths, times and the quantity
  have htime : (P.timestamptz event.occurredAt).isSome = true := by
    rw [hevent]
    show (P.timestamptz (toISOString e.ms)).isSome = true
    rw [P.timestamptz_toISOString _ e.ms_le]
    rfl
  refine ⟨hsafe, (isSome_gameEventRow_iff hchecked hsafe).mpr ⟨?_, ?_, ?_, htime⟩, fun hsome => ?_⟩
  · rw [hevent]
    exact fits_text e.sessionId_text.1 e.sessionId_text.2.2
  · rw [hevent]
    exact fits_text e.channelId_text.1 e.channelId_text.2.2
  · rw [hevent]
    exact e.content.flat.jsonb
  · obtain ⟨p, hp⟩ := Option.isSome_iff_exists.mp hsome
    rw [isSome_boundPurchase_iff P.toPostgres hchecked (hpchecked p hp) hsafe hp htime]
    obtain ⟨sale, rfl⟩ := hpurchase p hp
    refine ⟨fits_text sale.orderId_text.1 sale.orderId_text.2.2,
      fits_text sale.productId_text.1 sale.productId_text.2.2,
      fits_text sale.productName_text.1 sale.productName_text.2.2, ?_⟩
    have hquantity := sale.quantity_range.2
    show (sale.quantity : ℤ) ≤ maxInteger
    rw [maxInteger]
    omega

/-- What the service makes of an event, as far as ids, users, times and purchases go. -/
structure Describes (e : PlainEvent) (event : NormalizedEvent) : Prop where
  eventId : event.eventId = e.eventId.toLowerCase
  type : event.eventType.name = e.type
  userId : event.userId = e.userId
  occurredAt : event.occurredAt = toISOString e.ms
  other : e.type ≠ EventType.shopPurchase.name → event.purchase = none
  purchase : e.type = EventType.shopPurchase.name →
    ∃ sale : Sale, e.payload = sale.payload ∧ event.purchase = some sale.purchase

/-- **An event of numbers and texts** is accepted and its values fit. -/
theorem accepted (L : StandardLibraries) (P : StandardPostgres) (e : PlainEvent) :
    ∃ event, validateEvent L.toLibraries e.toJson = some (.accepted event) ∧
      (SafeIntegers event ∧ InDomain P.toPostgres event) ∧ Describes e event := by
  obtain ⟨envelope, hcopy, hget⟩ := exists_instance L
    (ordinary_succ (ordinary_succ e.ordinary)) e.plain
  obtain ⟨type, htype, hcontent⟩ := e.content.type
  obtain ⟨hholds, hnormal⟩ := holds_envelope htype hget
  rcases hcontent with hother | ⟨rfl, sale, hsale⟩
  · have hvalid := validateEvent_eq_accepted.mpr
      ⟨rfl, envelope, hcopy, .plain hholds hnormal hother⟩
    refine ⟨_, hvalid, inDomain P hvalid rfl (by simp [normalized]), rfl, htype.symm, rfl, rfl,
      fun _ => rfl, fun hshop => ?_⟩
    exact absurd (EventType.name_injective (htype.symm.trans hshop)) hother
  · obtain ⟨payloadDto, hcopy', hget'⟩ := exists_instance L
      (ordinary_succ (ordinary_succ (ordinary_succ sale.flat.ordinary))) sale.flat.plain
    obtain ⟨hpayload, hpurchase⟩ := holds_payload L sale hget'
    have hvalid := validateEvent_eq_accepted.mpr ⟨rfl, envelope, hcopy,
      .purchase hholds hnormal rfl (by rw [normalized, hsale]; exact hcopy') hpayload hpurchase⟩
    refine ⟨_, hvalid, inDomain P hvalid rfl ?_, rfl, htype.symm, rfl, rfl,
      fun hother => absurd htype hother, fun _ => ⟨sale, hsale, rfl⟩⟩
    rintro p hp
    exact ⟨sale, (Option.mem_some_iff.mp hp).symm⟩

/-! ### Rows -/

theorem varchar?_text {s : JsString} {n : ℕ} (h : Text s) (hn : s.length ≤ n) :
    varchar? n s = some s := by
  have hcarried : (s.map fun u => [u]).map carried = s.map fun u => [u] := by
    rw [List.map_map]
    refine List.map_congr_left fun u hu => ?_
    show carried [u] = [u]
    rw [carried, (Text.not_surrogate h u hu).2]
    rfl
  have hlength : (s.map fun u => [u]).length ≤ n := by rwa [List.length_map]
  have hjoin : (s.map fun u => [u]).flatten = s := by
    rw [← List.flatMap_def, List.flatMap_singleton']
  rw [varchar?, text?, if_neg (zero_notMem_text h), characters_text h, hcarried, Option.bind_some,
    List.drop_eq_nil_of_le hlength, List.take_of_length_le hlength, hjoin]
  rfl

theorem signed?_written {pg : Postgres} {z z' : ℤ} (hz : -2 ^ 53 < z ∧ z < 2 ^ 53)
    (h : signed? 64 (pg.written z) = some z') : z' = z := by
  rw [pg.written_eq z hz.1 hz.2, signed?] at h
  split_ifs at h
  exact (Option.some.inj h).symm

section Rows

variable {event : NormalizedEvent} (h : Describes e event)

include h

/-- The row of an event shows the type, the user and the time. -/
theorem Describes.sighting {row : GameEventRow}
    (hrow : gameEventRow P.toPostgres event = some row) :
    row.sighting = (e.type, (e.userId : ℤ), (e.ms : ℤ)) := by
  obtain ⟨-, htype, huser, htime⟩ := columns_of_gameEventRow hrow
  have huserId := e.userId_lt
  rw [h.userId] at huser
  rw [h.occurredAt, P.timestamptz_toISOString _ e.ms_le] at htime
  rw [varchar?_name, h.type] at htype
  rw [GameEventRow.sighting, ← Option.some.inj htype,
    signed?_written ⟨by omega, by omega⟩ huser, Option.some.inj htime]

/-- The row of a purchase shows the order and who paid what. -/
theorem Describes.payment {sale : Sale} (hpurchase : event.purchase = some sale.purchase)
    {row : PurchaseRow} (hrow : boundPurchase P.toPostgres event = some row) :
    row.orderId = sale.orderId ∧
      row.payment = ⟨e.userId, e.ms, sale.amountMinor, js "KRW"⟩ := by
  rw [boundPurchase, hpurchase] at hrow
  obtain ⟨horder, huser, htime, hamount, hcurrency⟩ := columns_of_purchaseRow hrow
  have huserId := e.userId_lt
  have hle := sale.amountMinor_le
  rw [h.userId] at huser
  rw [h.occurredAt, P.timestamptz_toISOString _ e.ms_le] at htime
  have hkrw : varchar? 3 (js "KRW") = some (js "KRW") :=
    varchar?_text (by decide +kernel) (by decide)
  have hpaid := signed?_written (z := (sale.amountMinor : ℤ)) ⟨by omega, by omega⟩ hamount
  refine ⟨?_, ?_⟩
  · exact (Option.some.inj ((varchar?_text sale.orderId_text.1 sale.orderId_text.2.2).symm.trans
      horder)).symm
  · rw [PurchaseRow.payment, signed?_written ⟨by omega, by omega⟩ huser, ← Option.some.inj htime,
      hpaid, ← Option.some.inj (hkrw.symm.trans hcurrency)]

end Rows

end PlainEvent

end Sender
