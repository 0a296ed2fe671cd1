/-
Validation of one raw event.

A batch carries events of type `unknown`; the service takes each of them through
`class-transformer` and `class-validator` and either normalises it or says why not.

* `Constraint`, `Dto` — the decorators of a property, the properties of a class;
* `Libraries` — the two packages, with the behaviour the service relies on;
* `validateEvent` — the service's check of one event;
* `isSome_validateEvent` — it throws only where `class-transformer` does;
* `validateEvent_eq_accepted` — the events it accepts, and what it makes of them.
-/
import LogStack.JsText
import Mathlib.Data.List.Forall2

open Json (string? string?_eq_some integer? array?)
open JsString (isDigit isHexDigit)

namespace Ingestion

/-! ### Event types -/

inductive EventType where
  | sessionLogin | sessionLogout | levelUp | expGain | monsterKill | questComplete | itemAcquire
  | itemUse | currencyChange | shopPurchase | bossClear | mapEnter | death
  deriving DecidableEq

namespace EventType

def name : EventType → JsString
  | sessionLogin => js "session_login"
  | sessionLogout => js "session_logout"
  | levelUp => js "level_up"
  | expGain => js "exp_gain"
  | monsterKill => js "monster_kill"
  | questComplete => js "quest_complete"
  | itemAcquire => js "item_acquire"
  | itemUse => js "item_use"
  | currencyChange => js "currency_change"
  | shopPurchase => js "shop_purchase"
  | bossClear => js "boss_clear"
  | mapEnter => js "map_enter"
  | death => js "death"

end EventType

/-- `EVENT_TYPES`, in the order of the source. -/
def eventTypes : List EventType :=
  [.sessionLogin, .sessionLogout, .levelUp, .expGain, .monsterKill, .questComplete, .itemAcquire,
    .itemUse, .currencyChange, .shopPurchase, .bossClear, .mapEnter, .death]

theorem mem_eventTypes (t : EventType) : t ∈ eventTypes := by
  cases t <;> decide

theorem EventType.name_injective : Function.Injective EventType.name := by
  intro t t' h
  have hpairs : ∀ t ∈ eventTypes, ∀ t' ∈ eventTypes, t.name = t'.name → t = t' := by
    decide +kernel
  exact hpairs t (mem_eventTypes t) t' (mem_eventTypes t') h

/-- The event type of a name. -/
def EventType.ofName? (s : JsString) : Option EventType :=
  eventTypes.find? fun t => t.name = s

theorem EventType.ofName?_eq_some {s : JsString} {t : EventType} :
    ofName? s = some t ↔ s = t.name := by
  constructor
  · intro h
    have hname := List.find?_some h
    exact (of_decide_eq_true hname).symm
  · rintro rfl
    cases h : ofName? t.name with
    | none => simpa using List.find?_eq_none.mp h t (mem_eventTypes t)
    | some t' =>
      have hname := List.find?_some h
      rw [EventType.name_injective (of_decide_eq_true hname)]

/-! ### Constraints -/

/-- `[+-]\d{2}:?\d{2}`, read from the end. -/
def endsWithOffset : JsString → Bool
  | m₂ :: m₁ :: rest =>
    isDigit m₂ && isDigit m₁ &&
      match if rest.head? = some 0x3a then rest.tail else rest with
      | h₂ :: h₁ :: sign :: _ => isDigit h₂ && isDigit h₁ && (sign = 0x2b || sign = 0x2d)
      | _ => false
  | _ => false

/-- `/(?:Z|[+-]\d{2}:?\d{2})$/` -/
def hasZoneDesignator (s : JsString) : Bool :=
  s.getLast? = some 0x5a || endsWithOffset s.reverse

/-- `/^[A-Z]{3}$/` -/
def isCurrencyCode (s : JsString) : Bool :=
  s.length = 3 && s.all fun u => 0x41 ≤ u && u ≤ 0x5a

/-- The text of a UUID: 36 hexadecimal digits and hyphens. -/
def isUuidText (s : JsString) : Bool :=
  s.length = 36 && s.zipIdx.all fun p =>
    if p.2 ∈ [8, 13, 18, 23] then p.1 = 0x2d else isHexDigit p.1

/-- A decorator with its arguments. -/
inductive Constraint where
  | isUUID
  | isIn (values : List JsString)
  | isInt
  | isString
  | length (least most : ℕ)
  | isObject
  | isISO8601 (strict : Bool)
  | isArray
  | arraySize (least most : ℕ)
  | matchesPattern (pattern : JsString → Bool) (message : JsString)
  | min (least : ℤ)

/-- What the decorators ask of third-party code about a string. `measure` is the length that
`Length` compares. -/
structure StringChecks where
  isUUID : JsString → Bool
  isISO8601 : Bool → JsString → Bool
  measure : JsString → ℕ
  isUuidText_of_isUUID : ∀ s, isUUID s = true → isUuidText s = true

/-- `value >= least` on a number. -/
def atLeast (least : ℤ) : Option Json → Bool
  | some (.num (.fin q)) => (least : ℚ) ≤ q
  | some (.num (.inf negative)) => !negative
  | _ => false

def isObject : Option Json → Bool
  | some (.obj _) => true
  | _ => false

def Constraint.holds (C : StringChecks) (value : Option Json) : Constraint → Bool
  | isUUID => (string? value).any C.isUUID
  | isIn values => (string? value).any fun s => s ∈ values
  | isInt => (integer? value).isSome
  | isString => (string? value).isSome
  | length least most => (string? value).any fun s => least ≤ C.measure s && C.measure s ≤ most
  | isObject => Ingestion.isObject value
  | isISO8601 strict => (string? value).any (C.isISO8601 strict)
  | isArray => (array? value).isSome
  | arraySize least most => (array? value).any fun items =>
    least ≤ items.length && items.length ≤ most
  | matchesPattern pattern _ => (string? value).any pattern
  | min least => atLeast least value

/-- The decorated properties of a class. -/
abbrev Dto := List (JsString × List Constraint)

def Dto.holds (C : StringChecks) (dto : Dto) (value : Json) : Prop :=
  ∀ property ∈ dto, ∀ c ∈ property.2, c.holds C (value.get? property.1) = true

def eventEnvelopeDto : Dto := [
  (js "instance_id", [.isUUID]),
  (js "event_id", [.isUUID]),
  (js "event_type", [.isIn (eventTypes.map EventType.name)]),
  (js "user_id", [.isInt]),
  (js "character_id", [.isInt]),
  (js "session_id", [.isString, .length 1 64]),
  (js "channel_id", [.isString, .length 1 64]),
  (js "payload", [.isObject]),
  (js "occurred_at", [.isISO8601 true, .matchesPattern hasZoneDesignator
    (js "occurred_at must include an explicit timezone designator (Z or +hh:mm)")])]

def shopPurchasePayloadDto : Dto := [
  (js "order_id", [.isString, .length 1 64]),
  (js "product_id", [.isString, .length 1 64]),
  (js "product_name", [.isString, .length 1 128]),
  (js "quantity", [.isInt, .min 1]),
  (js "amount_minor", [.isInt, .min 0]),
  (js "currency", [.matchesPattern isCurrencyCode (js "currency must be an ISO 4217 code")])]

/-! ### Messages -/

/-- An error of `class-validator`: the messages of the constraints that failed, by constraint,
and the errors of nested properties. -/
inductive ValidationError where
  | mk (constraints : List (JsString × JsString)) (children : List ValidationError)

def maxErrorMessageLength : ℕ := 200

def defaultValidationMessage : JsString := js "validation failed"

mutual

/-- What one error contributes to `firstConstraintMessage`. -/
def ValidationError.firstMessage? : ValidationError → Option JsString
  | ⟨message :: _, _⟩ => some (message.2.take maxErrorMessageLength)
  | ⟨[], children⟩ =>
    if firstConstraintMessage children = defaultValidationMessage then none
    else some (firstConstraintMessage children)

def firstConstraintMessage : List ValidationError → JsString
  | [] => defaultValidationMessage
  | error :: rest => error.firstMessage?.getD (firstConstraintMessage rest)

end

mutual

theorem ValidationError.length_firstMessage? :
    ∀ (error : ValidationError) {m : JsString}, error.firstMessage? = some m →
      m.length ≤ maxErrorMessageLength
  | ⟨message :: _, _⟩, m, h => by
    rw [ValidationError.firstMessage?, Option.some.injEq] at h
    exact h ▸ List.length_take_le _ _
  | ⟨[], children⟩, m, h => by
    rw [ValidationError.firstMessage?] at h
    split_ifs at h
    exact Option.some.inj h ▸ length_firstConstraintMessage children

/-- No message is longer than the cap. -/
theorem length_firstConstraintMessage :
    ∀ errors : List ValidationError, (firstConstraintMessage errors).length ≤ maxErrorMessageLength
  | [] => by
    rw [firstConstraintMessage]
    decide
  | error :: rest => by
    rw [firstConstraintMessage]
    cases h : error.firstMessage? with
    | none => exact length_firstConstraintMessage rest
    | some m => exact error.length_firstMessage? h

end

/-! ### The check -/

/-- A copy of a value, nested values included: an object may lose properties, and what it
keeps is a copy of what was there. -/
inductive Copied : Json → Json → Prop
  | null : Copied .null .null
  | bool (b : Bool) : Copied (.bool b) (.bool b)
  | num (n : JsNumber) : Copied (.num n) (.num n)
  | str (s : JsString) : Copied (.str s) (.str s)
  | arr {items copies : List Json} (h : List.Forall₂ Copied items copies) :
    Copied (.arr items) (.arr copies)
  | obj {fields copies : List (JsString × Json)} (source : JsString → Json)
    (kept : ∀ key copy, (Json.obj copies).get? key = some copy →
      (Json.obj fields).get? key = some (source key))
    (h : ∀ key copy, (Json.obj copies).get? key = some copy → Copied (source key) copy) :
    Copied (.obj fields) (.obj copies)

/-- What a copy has as a property was one of the original. -/
theorem Copied.get? {j i : Json} (h : Copied j i) {key : JsString} {copy : Json}
    (hcopy : i.get? key = some copy) : ∃ value, j.get? key = some value ∧ Copied value copy := by
  cases h with
  | obj source kept hcopied => exact ⟨source key, kept key copy hcopy, hcopied key copy hcopy⟩
  | _ => cases hcopy

theorem Copied.eq_str {j : Json} {s : JsString} (h : Copied j (.str s)) : j = .str s := by
  cases h
  rfl

mutual

theorem Copied.refl : ∀ j : Json, Copied j j
  | .null => .null
  | .bool b => .bool b
  | .num n => .num n
  | .str s => .str s
  | .arr items => .arr (Copied.refl_items items)
  | .obj fields => .obj (fun key => ((Json.obj fields).get? key).getD .null)
      (fun key copy h => by rw [h, Option.getD_some])
      (fun key copy h => by rw [h, Option.getD_some]; exact Copied.refl_field fields h)

theorem Copied.refl_items : ∀ items : List Json, List.Forall₂ Copied items items
  | [] => .nil
  | j :: rest => .cons (Copied.refl j) (Copied.refl_items rest)

theorem Copied.refl_field : ∀ (fields : List (JsString × Json)) {key : JsString} {value : Json},
    (Json.obj fields).get? key = some value → Copied value value
  | [], _, _, h => by simp [Json.get?] at h
  | (k, v) :: rest, key, value, h => by
    by_cases hk : k = key
    · obtain rfl : v = value := by simpa [Json.get?, hk] using h
      exact Copied.refl v
    · exact Copied.refl_field rest (by simpa [Json.get?, hk] using h)

end

/-- The names of what every object inherits. Own properties with these names are not copied. -/
def inheritedNames : List JsString :=
  [js "__proto__", js "constructor", js "hasOwnProperty", js "isPrototypeOf",
    js "propertyIsEnumerable", js "toLocaleString", js "toString", js "valueOf",
    js "__defineGetter__", js "__defineSetter__", js "__lookupGetter__", js "__lookupSetter__"]

/-- `class-transformer` and `class-validator`. `plainToInstance` copies a value into an
instance, and answers `none` where it throws; a property without a class of its own is copied
by `copyOf`, an array item by item. `validateSync` finds no error just where every decorator
holds. -/
structure Libraries extends StringChecks where
  plainToInstance : Json → Option Json
  copied : ∀ j i, plainToInstance j = some i → Copied j i
  copyOf : Json → Json
  copied_copyOf : ∀ j, Copied j (copyOf j)
  get?_plainToInstance : ∀ j i key, plainToInstance j = some i → key ∉ inheritedNames →
    i.get? key = (j.get? key).map copyOf
  copyOf_arr : ∀ items, copyOf (.arr items) = .arr (items.map copyOf)
  validateSync : Dto → Json → List ValidationError
  validateSync_eq_nil : ∀ dto value, validateSync dto value = [] ↔ dto.holds toStringChecks value

structure Purchase where
  orderId : JsString
  productId : JsString
  productName : JsString
  quantity : ℤ
  amountMinor : ℤ
  currency : JsString
  deriving DecidableEq

structure NormalizedEvent where
  eventId : JsString
  instanceId : JsString
  eventType : EventType
  userId : ℤ
  characterId : ℤ
  sessionId : JsString
  channelId : JsString
  payload : Json
  occurredAt : JsString
  purchase : Option Purchase

inductive EventValidationResult where
  | accepted (event : NormalizedEvent)
  | rejected (eventId : Option JsString) (code message : JsString)

/-- The normalised event of an instance; `none` where reading a property throws. -/
def normalize (envelope : Json) : Option NormalizedEvent := do
  pure {
    eventId := (← string? (envelope.get? (js "event_id"))).toLowerCase
    instanceId := (← string? (envelope.get? (js "instance_id"))).toLowerCase
    eventType := ← (string? (envelope.get? (js "event_type"))).bind EventType.ofName?
    userId := ← integer? (envelope.get? (js "user_id"))
    characterId := ← integer? (envelope.get? (js "character_id"))
    sessionId := ← string? (envelope.get? (js "session_id"))
    channelId := ← string? (envelope.get? (js "channel_id"))
    payload := ← envelope.get? (js "payload")
    occurredAt := ← string? (envelope.get? (js "occurred_at"))
    purchase := none }

def purchaseOf (payloadDto : Json) : Option Purchase := do
  pure {
    orderId := ← string? (payloadDto.get? (js "order_id"))
    productId := ← string? (payloadDto.get? (js "product_id"))
    productName := ← string? (payloadDto.get? (js "product_name"))
    quantity := ← integer? (payloadDto.get? (js "quantity"))
    amountMinor := ← integer? (payloadDto.get? (js "amount_minor"))
    currency := ← string? (payloadDto.get? (js "currency")) }

variable (L : Libraries)

/-- The event id that a rejection may carry: only a valid UUID is echoed. -/
def rejectedEventId (raw : Json) : Option JsString :=
  (string? (raw.get? (js "event_id"))).filter L.isUUID

/-- `validateEvent`; `none` where `plainToInstance` throws. -/
def validateEvent (raw : Json) : Option EventValidationResult :=
  match raw with
  | .obj _ => do
    let eventId := rejectedEventId L raw
    let envelope ← L.plainToInstance raw
    let envelopeErrors := L.validateSync eventEnvelopeDto envelope
    if !envelopeErrors.isEmpty then
      return .rejected eventId (js "INVALID_ENVELOPE") (firstConstraintMessage envelopeErrors)
    let event ← normalize envelope
    if event.eventType = .shopPurchase then
      let payloadDto ← L.plainToInstance event.payload
      let payloadErrors := L.validateSync shopPurchasePayloadDto payloadDto
      if !payloadErrors.isEmpty then
        return .rejected eventId (js "INVALID_PAYLOAD")
          ((js "shop_purchase.payload: " ++ firstConstraintMessage payloadErrors).take
            maxErrorMessageLength)
      return .accepted { event with purchase := ← purchaseOf payloadDto }
    return .accepted event
  | _ => some (.rejected none (js "INVALID_ENVELOPE") (js "event must be a JSON object"))

/-! ### What is accepted -/

/-- The instance passes the envelope's check, and a purchase's payload passes its own. -/
inductive Accepts (L : Libraries) (envelope : Json) : NormalizedEvent → Prop
  | plain {event : NormalizedEvent} (holds : eventEnvelopeDto.holds L.toStringChecks envelope)
      (normal : normalize envelope = some event) (other : event.eventType ≠ .shopPurchase) :
      Accepts L envelope event
  | purchase {event : NormalizedEvent} {payloadDto : Json} {purchase : Purchase}
      (holds : eventEnvelopeDto.holds L.toStringChecks envelope)
      (normal : normalize envelope = some event) (shop : event.eventType = .shopPurchase)
      (copied : L.plainToInstance event.payload = some payloadDto)
      (payloadHolds : shopPurchasePayloadDto.holds L.toStringChecks payloadDto)
      (parts : purchaseOf payloadDto = some purchase) :
      Accepts L envelope { event with purchase := some purchase }

variable {L} {raw envelope : Json} {event : NormalizedEvent}

theorem isEmpty_validateSync {dto : Dto} {value : Json} :
    (L.validateSync dto value).isEmpty = true ↔ dto.holds L.toStringChecks value := by
  rw [List.isEmpty_iff, L.validateSync_eq_nil]

theorem validateEvent_eq_accepted : validateEvent L raw = some (.accepted event) ↔
    isObject (some raw) = true ∧
      ∃ envelope, L.plainToInstance raw = some envelope ∧ Accepts L envelope event := by
  cases raw with
  | obj fields =>
    simp only [validateEvent, isObject, true_and]
    cases hcopy : L.plainToInstance (.obj fields) with
    | none => simp
    | some envelope =>
      simp only [Option.bind_eq_bind, Option.bind_some, Option.some.injEq, exists_eq_left']
      constructor
      · intro h
        split_ifs at h with hsync
        · simp at h
        obtain ⟨base, hbase, h⟩ := Option.bind_eq_some_iff.mp h
        have hholds := isEmpty_validateSync.mp (by simpa using hsync)
        split_ifs at h with hshop
        · obtain ⟨payloadDto, hpayload, h⟩ := Option.bind_eq_some_iff.mp h
          split_ifs at h with hpsync
          · simp at h
          obtain ⟨purchase, hpurchase, h⟩ := Option.bind_eq_some_iff.mp h
          obtain rfl : { base with purchase := some purchase } = event := by simpa using h
          exact .purchase hholds hbase hshop hpayload
            (isEmpty_validateSync.mp (by simpa using hpsync)) hpurchase
        · obtain rfl : base = event := by simpa using h
          exact .plain hholds hbase hshop
      · intro h
        cases h with
        | plain hholds hbase hother =>
          rw [isEmpty_validateSync.mpr hholds, hbase]
          simp [hother]
        | purchase hholds hbase hshop hpayload hpholds hpurchase =>
          rw [isEmpty_validateSync.mpr hholds, hbase]
          simp [hshop, hpayload, (L.validateSync_eq_nil _ _).mpr hpholds, hpurchase]
  | _ => simp [validateEvent, isObject]

theorem Dto.holds_cons {C : StringChecks} {key : JsString} {cs : List Constraint} {dto : Dto}
    {value : Json} : Dto.holds C ((key, cs) :: dto) value ↔
      (∀ c ∈ cs, c.holds C (value.get? key) = true) ∧ Dto.holds C dto value := by
  simp [Dto.holds]

theorem Dto.holds_nil {C : StringChecks} {value : Json} : Dto.holds C [] value := by
  simp [Dto.holds]

/-- What the envelope's check says about an event. -/
structure Checked (L : Libraries) (event : NormalizedEvent) : Prop where
  eventId : ∃ s, L.isUUID s = true ∧ event.eventId = s.toLowerCase
  instanceId : ∃ s, L.isUUID s = true ∧ event.instanceId = s.toLowerCase
  sessionId : 1 ≤ L.measure event.sessionId ∧ L.measure event.sessionId ≤ 64
  channelId : 1 ≤ L.measure event.channelId ∧ L.measure event.channelId ≤ 64
  payload : isObject (some event.payload) = true
  occurredAt : L.isISO8601 true event.occurredAt = true ∧ hasZoneDesignator event.occurredAt = true
  purchase : event.purchase.isSome = true ↔ event.eventType = .shopPurchase

/-- What the payload's check says about a purchase. -/
structure Purchase.Checked (L : Libraries) (p : Purchase) : Prop where
  orderId : 1 ≤ L.measure p.orderId ∧ L.measure p.orderId ≤ 64
  productId : 1 ≤ L.measure p.productId ∧ L.measure p.productId ≤ 64
  productName : 1 ≤ L.measure p.productName ∧ L.measure p.productName ≤ 128
  quantity : 1 ≤ p.quantity
  amountMinor : 0 ≤ p.amountMinor
  currency : isCurrencyCode p.currency = true

theorem normalize_eq_some : normalize envelope = some event ↔
    (string? (envelope.get? (js "event_id"))).map JsString.toLowerCase = some event.eventId ∧
    (string? (envelope.get? (js "instance_id"))).map JsString.toLowerCase
      = some event.instanceId ∧
    string? (envelope.get? (js "event_type")) = some event.eventType.name ∧
    integer? (envelope.get? (js "user_id")) = some event.userId ∧
    integer? (envelope.get? (js "character_id")) = some event.characterId ∧
    string? (envelope.get? (js "session_id")) = some event.sessionId ∧
    string? (envelope.get? (js "channel_id")) = some event.channelId ∧
    envelope.get? (js "payload") = some event.payload ∧
    string? (envelope.get? (js "occurred_at")) = some event.occurredAt ∧
    event.purchase = none := by
  obtain ⟨eventId, instanceId, eventType, userId, characterId, sessionId, channelId, payload,
    occurredAt, purchase⟩ := event
  simp only [normalize, Option.bind_eq_bind, Option.bind_eq_some_iff, EventType.ofName?_eq_some,
    Option.map_eq_some_iff, Option.pure_def, Option.some.injEq, NormalizedEvent.mk.injEq]
  constructor
  · rintro ⟨a, h₁, b, h₂, _, ⟨_, h₃, rfl⟩, _, h₄, _, h₅, _, h₆, _, h₇, _, h₈, _, h₉, rfl, rfl, rfl,
      rfl, rfl, rfl, rfl, rfl, rfl, rfl⟩
    exact ⟨⟨a, h₁, rfl⟩, ⟨b, h₂, rfl⟩, h₃, h₄, h₅, h₆, h₇, h₈, h₉, rfl⟩
  · rintro ⟨⟨a, h₁, rfl⟩, ⟨b, h₂, rfl⟩, h₃, h₄, h₅, h₆, h₇, h₈, h₉, rfl⟩
    exact ⟨a, h₁, b, h₂, _, ⟨_, h₃, rfl⟩, _, h₄, _, h₅, _, h₆, _, h₇, _, h₈, _, h₉, rfl, rfl, rfl,
      rfl, rfl, rfl, rfl, rfl, rfl, rfl⟩

theorem purchaseOf_eq_some {payloadDto : Json} {p : Purchase} :
    purchaseOf payloadDto = some p ↔
      string? (payloadDto.get? (js "order_id")) = some p.orderId ∧
      string? (payloadDto.get? (js "product_id")) = some p.productId ∧
      string? (payloadDto.get? (js "product_name")) = some p.productName ∧
      integer? (payloadDto.get? (js "quantity")) = some p.quantity ∧
      integer? (payloadDto.get? (js "amount_minor")) = some p.amountMinor ∧
      string? (payloadDto.get? (js "currency")) = some p.currency := by
  obtain ⟨orderId, productId, productName, quantity, amountMinor, currency⟩ := p
  simp only [purchaseOf, Option.bind_eq_bind, Option.bind_eq_some_iff, Option.pure_def,
    Option.some.injEq, Purchase.mk.injEq]
  constructor
  · rintro ⟨_, h₁, _, h₂, _, h₃, _, h₄, _, h₅, _, h₆, rfl, rfl, rfl, rfl, rfl, rfl⟩
    exact ⟨h₁, h₂, h₃, h₄, h₅, h₆⟩
  · rintro ⟨h₁, h₂, h₃, h₄, h₅, h₆⟩
    exact ⟨_, h₁, _, h₂, _, h₃, _, h₄, _, h₅, _, h₆, rfl, rfl, rfl, rfl, rfl, rfl⟩

/-- The values of a property on which a decorator of its string holds. -/
theorem any_string_eq_true {value : Option Json} {p : JsString → Bool} :
    (string? value).any p = true ↔ ∃ s, string? value = some s ∧ p s = true := by
  cases string? value <;> simp

theorem atLeast_eq_true {value : Option Json} {z least : ℤ} (h : integer? value = some z) :
    atLeast least value = true ↔ least ≤ z := by
  match value, h with
  | some (.num (.fin q)), h =>
    simp only [integer?, JsNumber.toInt?] at h
    split_ifs at h with hden
    obtain rfl := Option.some.inj h
    have hq : q = (q.num : ℚ) := (Rat.den_eq_one_iff q).mp hden |>.symm
    rw [atLeast, decide_eq_true_iff, hq]
    exact Rat.intCast_le_intCast

/-! ### What throws -/

/-- `class-transformer` copies the event, and the payload of a purchase whose envelope is
valid; what is not an object it is not given. -/
def Copyable (L : Libraries) (raw : Json) : Prop :=
  isObject (some raw) = true → ∃ envelope, L.plainToInstance raw = some envelope ∧
    (eventEnvelopeDto.holds L.toStringChecks envelope →
      envelope.get? (js "event_type") = some (.str EventType.shopPurchase.name) →
      ∀ payload, envelope.get? (js "payload") = some payload →
        (L.plainToInstance payload).isSome = true)

/-- An instance that passes the envelope's check can be read. -/
theorem exists_normalize (h : eventEnvelopeDto.holds L.toStringChecks envelope) :
    ∃ event, normalize envelope = some event := by
  simp only [eventEnvelopeDto, Dto.holds_cons, Dto.holds_nil, List.forall_mem_cons,
    List.not_mem_nil, false_imp_iff, implies_true, and_true, Constraint.holds,
    any_string_eq_true, Option.isSome_iff_exists] at h
  obtain ⟨⟨instanceId, hinstance, -⟩, ⟨eventId, hid, -⟩, ⟨type, htype, hname⟩, ⟨userId, huser⟩,
    ⟨characterId, hcharacter⟩, ⟨⟨sessionId, hsession⟩, -⟩, ⟨⟨channelId, hchannel⟩, -⟩, hpayload,
    ⟨occurredAt, htime, -⟩, -⟩ := h
  obtain ⟨t, -, rfl⟩ := List.mem_map.mp (of_decide_eq_true hname)
  obtain ⟨payload, hpayload'⟩ : ∃ payload, envelope.get? (js "payload") = some payload := by
    cases hget : envelope.get? (js "payload") with
    | none => simp [hget, isObject] at hpayload
    | some payload => exact ⟨payload, rfl⟩
  exact ⟨⟨eventId.toLowerCase, instanceId.toLowerCase, t, userId, characterId, sessionId,
    channelId, payload, occurredAt, none⟩, normalize_eq_some.mpr ⟨by rw [hid]; rfl,
      by rw [hinstance]; rfl, htype, huser, hcharacter, hsession, hchannel, hpayload', htime, rfl⟩⟩

/-- An instance that passes the payload's check is a purchase. -/
theorem exists_purchaseOf {payloadDto : Json}
    (h : shopPurchasePayloadDto.holds L.toStringChecks payloadDto) :
    ∃ p, purchaseOf payloadDto = some p := by
  simp only [shopPurchasePayloadDto, Dto.holds_cons, Dto.holds_nil, List.forall_mem_cons,
    List.not_mem_nil, false_imp_iff, implies_true, and_true, Constraint.holds,
    any_string_eq_true, Option.isSome_iff_exists] at h
  obtain ⟨⟨⟨orderId, horder⟩, -⟩, ⟨⟨productId, hproduct⟩, -⟩, ⟨⟨productName, hname⟩, -⟩,
    ⟨⟨quantity, hquantity⟩, -⟩, ⟨⟨amountMinor, hamount⟩, -⟩, currency, hcurrency, -⟩ := h
  exact ⟨⟨orderId, productId, productName, quantity, amountMinor, currency⟩,
    purchaseOf_eq_some.mpr ⟨horder, hproduct, hname, hquantity, hamount, hcurrency⟩⟩

/-- **The check throws** just on the events that the transformer does not copy. -/
theorem isSome_validateEvent : (validateEvent L raw).isSome = true ↔ Copyable L raw := by
  cases raw with
  | obj fields =>
    simp only [validateEvent, Copyable, isObject, true_imp_iff]
    cases hcopy : L.plainToInstance (.obj fields) with
    | none => simp
    | some envelope =>
      simp only [Option.bind_eq_bind, Option.bind_some, Option.some.injEq, exists_eq_left']
      by_cases hsync : (L.validateSync eventEnvelopeDto envelope).isEmpty = true
      · have hholds := isEmpty_validateSync.mp hsync
        obtain ⟨event, hevent⟩ := exists_normalize hholds
        obtain ⟨-, -, htype, -, -, -, -, hpayload, -, -⟩ := normalize_eq_some.mp hevent
        rw [string?_eq_some] at htype
        rw [hsync, hevent, Option.bind_some]
        -- a second copy is made of the payload of a purchase only
        by_cases hshop : event.eventType = .shopPurchase
        · rw [hshop] at htype
          simp only [Bool.not_true, Bool.false_eq_true, if_false, if_pos hshop, hholds, htype,
            hpayload, true_imp_iff, Option.some.injEq, forall_eq']
          cases hpcopy : L.plainToInstance event.payload with
          | none => simp
          | some payloadDto =>
            rw [Option.bind_some]
            split_ifs with hpsync
            · simp
            · -- the decorators that held make the purchase
              obtain ⟨p, hp⟩ :=
                exists_purchaseOf (isEmpty_validateSync.mp (by simpa using hpsync))
              simp [hp]
        · have hother : event.eventType.name ≠ EventType.shopPurchase.name :=
            fun h => hshop (EventType.name_injective h)
          simp [hshop, htype, hother]
      · have hholds : ¬eventEnvelopeDto.holds L.toStringChecks envelope :=
          mt isEmpty_validateSync.mpr hsync
        simp [hsync, hholds]
  | _ => simp [validateEvent, Copyable, isObject]

/-! ### What has been checked -/

theorem checked_of_normalize (hholds : eventEnvelopeDto.holds L.toStringChecks envelope)
    (h : normalize envelope = some event) (purchase : Option Purchase)
    (hpurchase : purchase.isSome = true ↔ event.eventType = .shopPurchase) :
    Checked L { event with purchase := purchase } := by
  obtain ⟨hid, hinstance, -, -, -, hsession, hchannel, hpayload, htime, -⟩ := normalize_eq_some.mp h
  simp only [eventEnvelopeDto, Dto.holds_cons, Dto.holds_nil, List.forall_mem_cons,
    List.not_mem_nil, false_imp_iff, implies_true, and_true, Constraint.holds, hsession, hchannel,
    hpayload, htime, Option.any_some, Bool.and_eq_true, decide_eq_true_iff] at hholds
  obtain ⟨hinstance', hid', -, -, -, ⟨-, hsession'⟩, ⟨-, hchannel'⟩, hpayload', htime'⟩ := hholds
  refine ⟨?_, ?_, hsession', hchannel', hpayload', htime', hpurchase⟩
  · obtain ⟨s, hs, hvalid⟩ := any_string_eq_true.mp hid'
    rw [hs, Option.map_some, Option.some.injEq] at hid
    exact ⟨s, hvalid, hid.symm⟩
  · obtain ⟨s, hs, hvalid⟩ := any_string_eq_true.mp hinstance'
    rw [hs, Option.map_some, Option.some.injEq] at hinstance
    exact ⟨s, hvalid, hinstance.symm⟩

theorem checked_of_purchaseOf {payloadDto : Json} {p : Purchase}
    (hholds : shopPurchasePayloadDto.holds L.toStringChecks payloadDto)
    (h : purchaseOf payloadDto = some p) : p.Checked L := by
  obtain ⟨horder, hproduct, hname, hquantity, hamount, hcurrency⟩ := purchaseOf_eq_some.mp h
  simp only [shopPurchasePayloadDto, Dto.holds_cons, Dto.holds_nil, List.forall_mem_cons,
    List.not_mem_nil, false_imp_iff, implies_true, and_true, Constraint.holds, horder, hproduct,
    hname, hcurrency, Option.any_some, Bool.and_eq_true, decide_eq_true_iff,
    atLeast_eq_true hquantity, atLeast_eq_true hamount] at hholds
  obtain ⟨⟨-, horder'⟩, ⟨-, hproduct'⟩, ⟨-, hname'⟩, ⟨-, hquantity'⟩, ⟨-, hamount'⟩, hcurrency'⟩ :=
    hholds
  exact ⟨horder', hproduct', hname', hquantity', hamount', hcurrency'⟩

/-- An accepted event has passed the checks of its envelope and of its purchase. -/
theorem checked_of_accepted (h : validateEvent L raw = some (.accepted event)) :
    Checked L event ∧ ∀ p ∈ event.purchase, p.Checked L := by
  obtain ⟨-, envelope, -, haccepts⟩ := validateEvent_eq_accepted.mp h
  cases haccepts with
  | plain hholds hnormal hother =>
    have hnone := (normalize_eq_some.mp hnormal).2.2.2.2.2.2.2.2.2
    refine ⟨?_, by simp [hnone]⟩
    have hchecked := checked_of_normalize hholds hnormal none (by simp [hother])
    rwa [← hnone] at hchecked
  | purchase hholds hnormal hshop hcopied hpayload hparts =>
    refine ⟨checked_of_normalize hholds hnormal _ (by simp [hshop]), ?_⟩
    rintro p hp
    obtain rfl := Option.mem_some_iff.mp hp
    exact checked_of_purchaseOf hpayload hparts

/-- A rejection echoes an event id only when it is a valid UUID, has a code, and says no more
than the cap allows. -/
theorem rejected_spec {eventId : Option JsString} {code message : JsString}
    (h : validateEvent L raw = some (.rejected eventId code message)) :
    (∀ s ∈ eventId, raw.get? (js "event_id") = some (.str s) ∧ L.isUUID s = true) ∧
      code ≠ [] ∧ message.length ≤ maxErrorMessageLength := by
  have hcodes : js "INVALID_ENVELOPE" ≠ [] ∧ js "INVALID_PAYLOAD" ≠ [] := by decide +kernel
  have hid : ∀ s ∈ rejectedEventId L raw,
      raw.get? (js "event_id") = some (.str s) ∧ L.isUUID s = true := by
    intro s hs
    obtain ⟨hs, hvalid⟩ := Option.filter_eq_some_iff.mp hs
    exact ⟨string?_eq_some.mp hs, hvalid⟩
  cases raw with
  | obj fields =>
    simp only [validateEvent] at h
    obtain ⟨envelope, hcopy, h⟩ := Option.bind_eq_some_iff.mp h
    split_ifs at h with hsync
    · simp only [pure, Option.some.injEq, EventValidationResult.rejected.injEq] at h
      obtain ⟨rfl, rfl, rfl⟩ := h
      exact ⟨hid, hcodes.1, length_firstConstraintMessage _⟩
    obtain ⟨base, hbase, h⟩ := Option.bind_eq_some_iff.mp h
    split_ifs at h with hshop
    · obtain ⟨payloadDto, hpayload, h⟩ := Option.bind_eq_some_iff.mp h
      split_ifs at h with hpsync
      · simp only [pure, Option.some.injEq, EventValidationResult.rejected.injEq] at h
        obtain ⟨rfl, rfl, rfl⟩ := h
        exact ⟨hid, hcodes.2, List.length_take_le _ _⟩
      · obtain ⟨purchase, hpurchase, h⟩ := Option.bind_eq_some_iff.mp h
        simp at h
    · simp at h
  | _ =>
    simp only [validateEvent, Option.some.injEq, EventValidationResult.rejected.injEq] at h
    obtain ⟨rfl, rfl, rfl⟩ := h
    exact ⟨by simp, hcodes.1, by decide +kernel⟩

end Ingestion
