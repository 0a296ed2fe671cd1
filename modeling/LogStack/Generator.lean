/-
The generator of events (`sender/src/generator.ts`, `scripts/generate-events.ts`).

The integers of an event stay below `2 ^ 53`, where the arithmetic of doubles is exact; what is
made of a random number is rounded.

* `Source` — the random numbers, the UUIDs and the times that a generator draws;
* `pickActivity`, `makeEvent`, `tick` — the events of a time step;
* `Flat`, `Sale` — the payloads that it makes, and what a purchase is among them;
* `GeneratedEvent` — what each of its events is;
* `always_tick` — a time step makes such events and no others.
-/
import LogStack.EventValidation
import LogStack.IsoTime
import LogStack.Sampling
import LogStack.SenderConfig
import Mathlib.Data.Rat.Floor

open Calendar (MAX_DAY toISOString)
open Ingestion (EventType)
open JsString (isDigit isHexDigit ofDigits digitValue)
open Sampling

namespace Sender

/-- The doubles, with `Math.exp` of a finite number. -/
structure JsMath extends Doubles where
  exp : ℚ → ℚ

def isUuidV4 (s : JsString) : Bool := isInstanceUuid s && s[14]? = some 0x34

/-- What a generator draws from: `rng`, `randomUUID` and the clock, which is read in
milliseconds between 1970 and 9999. -/
structure Source where
  random : ℕ → ℚ
  random_unit : ∀ i, 0 ≤ random i ∧ random i < 1
  uuid : ℕ → JsString
  uuid_v4 : ∀ i, isUuidV4 (uuid i) = true
  now : ℕ → ℕ
  now_le : ∀ i, now i / 86400000 ≤ MAX_DAY

abbrev Gen := Sample Source

/-- The properties of an object literal, evaluated in their order. -/
def object : List (JsString × Gen Json) → Gen (List (JsString × Json))
  | [] => pure []
  | (key, value) :: rest => do
    let v ← value
    let fields ← object rest
    pure ((key, v) :: fields)

section Values

variable (M : JsMath)

/-- `Math.floor(rng() * n)` -/
def floorRandom (n : ℚ) : Gen ℕ := do
  let r ← draw Source.random
  pure ⌊M.round (r * n)⌋₊

/-- A text with a number from 1 on behind it. -/
def numbered (text : JsString) (n : ℕ) : Gen Json := do
  let k ← floorRandom M n
  pure (.str (text ++ decimal (1 + k)))

def atLeast (least n : ℕ) : Gen Json := do
  let k ← floorRandom M n
  pure (.nat (least + k))

/-- `rng() < p ? text : other` -/
def either (p : ℚ) (text other : JsString) : Gen Json := do
  let r ← draw Source.random
  pure (.str (if r < M.round p then text else other))

end Values

/-! ### Activities -/

structure ActivitySpec where
  type : JsString
  weight : ℕ
  payload : Gen (List (JsString × Json))

section Activities

variable (M : JsMath)

def mapId : Gen Json := numbered M (js "map-") 8

def monsterKill : ActivitySpec where
  type := js "monster_kill"
  weight := 45
  payload := object [(js "monster_id", numbered M (js "mob-") 30), (js "map_id", mapId M)]

def ACTIVITIES : List ActivitySpec := [
  monsterKill M,
  { type := js "exp_gain"
    weight := 30
    payload := object [
      (js "amount", atLeast M 10 500),
      (js "source_type", either M (7 / 10) (js "hunt") (js "quest")),
      (js "map_id", mapId M)] },
  { type := js "item_acquire"
    weight := 8
    payload := object [
      (js "item_id", numbered M (js "item-") 50),
      (js "quantity", atLeast M 1 3),
      (js "source_type", pure (.str (js "drop")))] },
  { type := js "map_enter"
    weight := 7
    payload := object [(js "from_map_id", mapId M), (js "to_map_id", mapId M)] },
  { type := js "quest_complete"
    weight := 4
    payload := object [
      (js "quest_id", numbered M (js "quest-") 20),
      (js "reward_exp", atLeast M 100 900)] },
  { type := js "boss_clear"
    weight := 2
    payload := object [
      (js "boss_id", numbered M (js "boss-") 5),
      (js "difficulty", either M (1 / 2) (js "normal") (js "hard")),
      (js "clear_time_ms", atLeast M 60000 300000)] },
  { type := js "level_up"
    weight := 2
    payload := do
      let k ← floorRandom M 98
      object [(js "from_level", pure (.nat (1 + k))), (js "to_level", pure (.nat (1 + k + 1)))] },
  { type := js "death"
    weight := 2
    payload := object [
      (js "map_id", mapId M),
      (js "cause_type", either M (8 / 10) (js "monster") (js "fall"))] }]

/-- The first activity that uses up what is left of `r`. -/
def pickFrom : List ActivitySpec → ℚ → Option ActivitySpec
  | [], _ => none
  | activity :: rest, r =>
    let r := M.round (r - activity.weight)
    if r ≤ 0 then some activity else pickFrom rest r

def pickActivity : Gen ActivitySpec := do
  let total := ((ACTIVITIES M).map ActivitySpec.weight).sum
  let r ← draw Source.random
  pure ((pickFrom M (ACTIVITIES M) (M.round (r * total))).getD (monsterKill M))

end Activities

/-! ### The generator -/

/-- A block of thirty users for an instance. -/
def instanceUserIdBase (instanceId : JsString) : ℕ :=
  let compactUuid := instanceId.filter fun u => u ≠ 0x2d
  ofDigits 16 digitValue compactUuid % 30023997515803 * 30 + 1

structure EventGenerator where
  config : SenderConfig
  bootId : JsString
  userIdBase : ℕ

def EventGenerator.new (config : SenderConfig) : Gen EventGenerator := do
  let uuid ← draw Source.uuid
  pure ⟨config, uuid.take 8, instanceUserIdBase config.instanceId⟩

/-- `{ ...base, event_type, payload }` -/
def eventJson (instanceId bootId eventId : JsString) (userId now : ℕ) (type : JsString)
    (payload : List (JsString × Json)) : Json := .obj [
  (js "instance_id", .str instanceId),
  (js "event_id", .str eventId),
  (js "user_id", .nat userId),
  (js "character_id", .nat (userId * 10 + 1)),
  (js "session_id", .str (js "s-" ++ decimal userId ++ js "-" ++ bootId)),
  (js "channel_id", .str (js "channel-0" ++ decimal (1 + userId % 3))),
  (js "occurred_at", .str (toISOString now)),
  (js "event_type", .str type),
  (js "payload", .obj payload)]

section Generate

variable (M : JsMath)

def loginPayload : Gen (List (JsString × Json)) := object [
  (js "platform", either M (6 / 10) (js "pc") (js "mobile")),
  (js "client_version", pure (.str (js "1.0.0")))]

def logoutPayload : Gen (List (JsString × Json)) := object [
  (js "duration_ms", do
    let r ← draw Source.random
    pure (.nat ⌊M.round (M.round (M.round (r * 4) * 3600) * 1000)⌋₊)),
  (js "reason", pure (.str (js "user_quit")))]

def purchasePayload : Gen (List (JsString × Json)) := do
  let k ← floorRandom M 3
  let quantity := 1 + k
  object [
    (js "order_id", do
      let uuid ← draw Source.uuid
      pure (.str (js "ORDER-" ++ uuid))),
    (js "product_id", numbered M (js "cash-item-") 10),
    (js "product_name", numbered M (js "캐시 아이템 ") 10),
    (js "quantity", pure (.nat quantity)),
    (js "amount_minor", do
      let price ← floorRandom M 50
      pure (.nat (quantity * (500 + price * 100)))),
    (js "currency", pure (.str (js "KRW")))]

variable (g : EventGenerator)

def makeEvent : Gen Json := do
  let k ← floorRandom M g.config.users
  let userId := g.userIdBase + k
  let eventId ← draw Source.uuid
  let now ← draw Source.now
  let event := eventJson g.config.instanceId g.bootId eventId userId now
  let r ← draw Source.random
  if r < M.round (8 / 100) then do
    let payload ← loginPayload M
    pure (event (js "session_login") payload)
  else if r < M.round (13 / 100) then do
    let payload ← logoutPayload M
    pure (event (js "session_logout") payload)
  else if r < M.round (16 / 100) then do
    let payload ← purchasePayload M
    pure (event (js "shop_purchase") payload)
  else do
    let activity ← pickActivity M
    let payload ← activity.payload
    pure (event activity.type payload)

/-- `a * b`; `none` is `NaN`. -/
def times : JsNumber → JsNumber → Option JsNumber
  | .fin a, .fin b => some (M.number (a * b))
  | .fin a, .inf negative | .inf negative, .fin a =>
    if a = 0 then none else some (.inf (negative ^^ decide (a < 0)))
  | .inf negative, .inf negative' => some (.inf (negative ^^ negative'))

/-- The loop of `poisson`: `k` draws so far, and their product. `none` is a loop that goes on
after `fuel` more draws. -/
def poissonLoop (limit : ℚ) : ℕ → ℕ → ℚ → Gen (Option ℕ)
  | 0, _, _ => pure none
  | fuel + 1, k, p => do
    let r ← draw Source.random
    let p := M.round (p * r)
    if limit < p then poissonLoop limit fuel (k + 1) p else pure (some k)

/-- `poisson`, of `NaN` where `lambda` is `none`: no product is above `Math.exp(NaN)`. -/
def poisson (fuel : ℕ) : Option JsNumber → Gen (Option ℕ)
  | none => do
    let _ ← draw Source.random
    pure (some 0)
  | some (.inf true) => pure (some 0)
  | some (.inf false) => poissonLoop M 0 fuel 0 1
  | some (.fin lambda) =>
    if lambda ≤ 0 then pure (some 0) else poissonLoop M (M.exp (-lambda)) fuel 0 1

/-- The events of `dtMs` milliseconds; `none` where `fuel` draws do not end the loop of
`poisson`. -/
def tick (fuel : ℕ) (dtMs : ℚ) : Gen (Option (List Json)) := do
  let rate := M.number (g.config.users * g.config.eventRate)
  let lambda := times M rate (.fin (M.round (dtMs / 1000)))
  let count ← poisson M fuel lambda
  match count with
  | none => pure none
  | some count => do
    let events ← replicateM (makeEvent M g) count
    pure (some events)

end Generate

/-! ### Values -/

/-- No control character, no surrogate and no variation selector. -/
def Text (s : JsString) : Prop := ∀ u ∈ s, 0x20 ≤ u ∧ u < 0xD800

instance (s : JsString) : Decidable (Text s) := List.decidableBAll _ s

theorem Text.append {s t : JsString} (hs : Text s) (ht : Text t) : Text (s ++ t) := fun u hu =>
  (List.mem_append.mp hu).elim (hs u) (ht u)

theorem text_decimal (n : ℕ) : Text (decimal n) := by
  intro u hu
  obtain ⟨d, hd, rfl⟩ := JsString.mem_decimal hu
  have hall : ∀ d < 10, 0x20 ≤ (0x30 + d).toUInt16 ∧ (0x30 + d).toUInt16 < 0xD800 := by decide
  exact hall d hd

theorem length_decimal_le {n k : ℕ} (hk : 0 < k) (h : n < 10 ^ k) : (decimal n).length ≤ k := by
  rw [decimal]
  split_ifs with hn
  · exact hk
  · rw [List.length_reverse, List.length_map]
    exact (Nat.digits_length_le_iff (by decide) n).mpr h

theorem isUuidV4_spec {s : JsString} (h : isUuidV4 s = true) :
    isInstanceUuid s = true ∧ s.length = 36 := by
  simp only [isUuidV4, isInstanceUuid, Bool.and_eq_true, decide_eq_true_iff] at h ⊢
  exact ⟨h.1, h.1.1⟩

/-- A UUID has digits, letters and hyphens. -/
theorem text_of_isInstanceUuid {s : JsString} (h : isInstanceUuid s = true) : Text s := by
  intro u hu
  obtain ⟨i, hi⟩ := List.mem_iff_getElem?.mp hu
  simp only [isInstanceUuid, Bool.and_eq_true, List.all_eq_true] at h
  have hchar := h.2 (u, i) (List.mem_zipIdx_iff_getElem?.mpr (by simpa using hi))
  split_ifs at hchar with hhyphen hversion hvariant
  · obtain rfl : u = 0x2d := of_decide_eq_true hchar
    decide
  · simp only [Bool.and_eq_true, decide_eq_true_iff] at hchar
    grind
  · have hall : Text (js "89abAB") := by decide +kernel
    exact hall u (by simpa using hchar)
  · simp only [isHexDigit, isDigit, Bool.or_eq_true, Bool.and_eq_true, decide_eq_true_iff] at hchar
    grind

/-! ### Payloads -/

/-- A safe integer or a short text. -/
inductive Simple : Json → Prop
  | nat {n : ℕ} (h : n ≤ 2 ^ 53) : Simple (.nat n)
  | str {s : JsString} (h : Text s) (hshort : s.length ≤ 128) : Simple (.str s)

/-- A few short names in property order that no object inherits. -/
def plainKeys (keys : List JsString) : Prop :=
  keys.Pairwise (fun k l => JsString.keyBefore k l = true) ∧
    (∀ key ∈ keys, key ∉ Ingestion.inheritedNames ∧ Text key) ∧
    keys.length ≤ 6 ∧ ∀ key ∈ keys, key.length ≤ 32

instance (keys : List JsString) : Decidable (plainKeys keys) :=
  inferInstanceAs (Decidable (_ ∧ _))

/-- An object of numbers and texts. -/
structure Flat (fields : List (JsString × Json)) : Prop where
  keys : plainKeys (fields.map Prod.fst)
  values : ∀ f ∈ fields, Simple f.2

/-- The payload of a purchase. -/
structure Sale where
  orderId : JsString
  productId : JsString
  productName : JsString
  quantity : ℕ
  amountMinor : ℕ
  orderId_text : Text orderId ∧ 1 ≤ orderId.length ∧ orderId.length ≤ 64
  productId_text : Text productId ∧ 1 ≤ productId.length ∧ productId.length ≤ 64
  productName_text : Text productName ∧ 1 ≤ productName.length ∧ productName.length ≤ 128
  quantity_range : 1 ≤ quantity ∧ quantity ≤ 4
  amountMinor_le : amountMinor ≤ 22000

def Sale.payload (sale : Sale) : List (JsString × Json) := [
  (js "order_id", .str sale.orderId),
  (js "product_id", .str sale.productId),
  (js "product_name", .str sale.productName),
  (js "quantity", .nat sale.quantity),
  (js "amount_minor", .nat sale.amountMinor),
  (js "currency", .str (js "KRW"))]

section Payloads

variable {M : JsMath}

/-- Rounding does not pass an integer. -/
theorem round_le {n : ℕ} (h : n ≤ 2 ^ 53) {q : ℚ} (hq : q ≤ n) : M.round q ≤ n := by
  have hround : M.round (n : ℚ) = n := by
    have hint := M.round_int (n : ℤ) (by rw [Nat.abs_cast]; exact_mod_cast h)
    exact_mod_cast hint
  calc M.round q ≤ M.round n := M.round_mono hq
    _ = n := hround

theorem always_floorRandom {n : ℕ} (h : n ≤ 2 ^ 53) : Always (· ≤ n) (floorRandom M n) :=
  always_bind (always_draw (p := fun r : ℚ => 0 ≤ r ∧ r < 1) fun s i => s.random_unit i)
    fun _ hr => always_pure (Nat.floor_le_of_le
      (round_le h (mul_le_of_le_one_left n.cast_nonneg hr.2.le)))

/-- A text of 1 to `n` characters. -/
def Label (n : ℕ) (j : Json) : Prop :=
  ∃ s, j = .str s ∧ Text s ∧ 1 ≤ s.length ∧ s.length ≤ n

theorem label_numbered {text : JsString} {n k most : ℕ} (htext : Text text) (hk : 0 < k)
    (hn : 1 + n < 10 ^ k) (hle : n ≤ 2 ^ 53) (hmost : text.length + k ≤ most) :
    Always (Label most) (numbered M text n) := by
  refine always_bind (always_floorRandom hle) fun m hm => always_pure ⟨_, rfl, ?_, ?_, ?_⟩
  · exact htext.append (text_decimal _)
  · have hdigits := List.length_pos_iff.mpr (JsString.decimal_ne_nil (1 + m))
    rw [List.length_append]
    omega
  · have hdigits := length_decimal_le hk (lt_of_le_of_lt (Nat.add_le_add_left hm 1) hn)
    rw [List.length_append]
    omega

theorem Label.simple {j : Json} {n : ℕ} (h : Label n j) (hn : n ≤ 128) : Simple j := by
  obtain ⟨s, rfl, htext, -, hlength⟩ := h
  exact .str htext (hlength.trans hn)

theorem simple_numbered {text : JsString} {n : ℕ} (htext : Text text) (hn : 1 + n < 10 ^ 2)
    (hlength : text.length + 2 ≤ 128) : Always Simple (numbered M text n) :=
  (label_numbered htext (by decide) hn (by omega) hlength).mono fun _ h => h.simple le_rfl

theorem simple_atLeast {least n : ℕ} (h : least + n ≤ 2 ^ 53) :
    Always Simple (atLeast M least n) :=
  always_bind (always_floorRandom (n := n) (by omega)) fun _ hk => always_pure (.nat (by omega))

theorem simple_either {p : ℚ} {text other : JsString} (htext : Text text ∧ text.length ≤ 128)
    (hother : Text other ∧ other.length ≤ 128) : Always Simple (either M p text other) := by
  refine always_bind always_true fun r _ => always_pure ?_
  split_ifs
  · exact .str htext.1 htext.2
  · exact .str hother.1 hother.2

theorem always_object_cons {key : JsString} {value : Gen Json} {fields : List (JsString × Gen Json)}
    {p : Json → Prop} {r : List (JsString × Json) → Prop} (hvalue : Always p value)
    (hfields : Always r (object fields)) :
    Always (fun payload => ∃ v rest, payload = (key, v) :: rest ∧ p v ∧ r rest)
      (object ((key, value) :: fields)) :=
  always_bind hvalue fun v hv => always_bind hfields fun rest hrest =>
    always_pure ⟨v, rest, rfl, hv, hrest⟩

/-- An object literal has its names, and values of the kind that its expressions give. -/
theorem always_object {p : Json → Prop} {fields : List (JsString × Gen Json)}
    (h : ∀ f ∈ fields, Always p f.2) :
    Always (fun payload => payload.map Prod.fst = fields.map Prod.fst ∧ ∀ f ∈ payload, p f.2)
      (object fields) := by
  induction fields with
  | nil => exact always_pure ⟨rfl, fun _ hf => absurd hf List.not_mem_nil⟩
  | cons f fields ih =>
    obtain ⟨hf, hfields⟩ := List.forall_mem_cons.mp h
    refine (always_object_cons hf (ih hfields)).mono ?_
    rintro _ ⟨v, rest, rfl, hv, hkeys, hrest⟩
    exact ⟨by simp only [List.map_cons, hkeys], List.forall_mem_cons.mpr ⟨hv, hrest⟩⟩

theorem flat_object {fields : List (JsString × Gen Json)} (hkeys : plainKeys (fields.map Prod.fst))
    (h : ∀ f ∈ fields, Always Simple f.2) : Always Flat (object fields) :=
  (always_object h).mono fun _ hpayload => ⟨hpayload.1 ▸ hkeys, hpayload.2⟩

theorem always_loginPayload : Always Flat (loginPayload M) := by
  refine flat_object (by simp only [List.map]; decide +kernel) ?_
  simp only [List.forall_mem_cons]
  refine ⟨simple_either (by decide +kernel) (by decide +kernel), ?_, by simp⟩
  exact always_pure (.str (by decide +kernel) (by decide))

theorem always_logoutPayload : Always Flat (logoutPayload M) := by
  refine flat_object (by simp only [List.map]; decide +kernel) ?_
  simp only [List.forall_mem_cons]
  refine ⟨?_, ?_, by simp⟩
  · -- each product is at most that of the whole numbers
    refine always_bind (always_draw (p := fun r : ℚ => 0 ≤ r ∧ r < 1) fun s i => s.random_unit i)
      fun r hr => always_pure (.nat (Nat.floor_le_of_le ?_))
    have hhours : M.round (r * 4) ≤ 4 := round_le (by norm_num) (by push_cast; linarith)
    have hseconds : M.round (M.round (r * 4) * 3600) ≤ 14400 :=
      round_le (by norm_num) (by push_cast; linarith)
    have hms := round_le (M := M) (n := 14400000) (by norm_num)
      (show M.round (M.round (r * 4) * 3600) * 1000 ≤ (14400000 : ℕ) by push_cast; linarith)
    exact hms.trans (by norm_num)
  exact always_pure (.str (by decide +kernel) (by decide))

/-- An activity has a type other than that of a purchase, and a payload of numbers and texts. -/
structure ActivitySpec.Plain (activity : ActivitySpec) : Prop where
  type : ∃ t : EventType, t ≠ .shopPurchase ∧ activity.type = t.name
  payload : Always Flat activity.payload

theorem mapId_simple : Always Simple (mapId M) :=
  simple_numbered (by decide +kernel) (by decide) (by decide)

theorem monsterKill_plain : (monsterKill M).Plain := by
  refine ⟨⟨.monsterKill, by decide, rfl⟩, flat_object (by simp only [List.map]; decide +kernel) ?_⟩
  simp only [List.forall_mem_cons]
  exact ⟨simple_numbered (by decide +kernel) (by decide) (by decide), mapId_simple, by simp⟩

theorem activities_plain : ∀ activity ∈ ACTIVITIES M, activity.Plain := by
  simp only [ACTIVITIES, List.forall_mem_cons]
  refine ⟨monsterKill_plain, ⟨⟨.expGain, by decide, rfl⟩, ?_⟩, ⟨⟨.itemAcquire, by decide, rfl⟩, ?_⟩,
    ⟨⟨.mapEnter, by decide, rfl⟩, ?_⟩, ⟨⟨.questComplete, by decide, rfl⟩, ?_⟩,
    ⟨⟨.bossClear, by decide, rfl⟩, ?_⟩, ⟨⟨.levelUp, by decide, rfl⟩, ?_⟩,
    ⟨⟨.death, by decide, rfl⟩, ?_⟩, by simp⟩
  · refine flat_object (by simp only [List.map]; decide +kernel) ?_
    simp only [List.forall_mem_cons]
    exact ⟨simple_atLeast (by decide), simple_either (by decide +kernel) (by decide +kernel),
      mapId_simple, by simp⟩
  · refine flat_object (by simp only [List.map]; decide +kernel) ?_
    simp only [List.forall_mem_cons]
    exact ⟨simple_numbered (by decide +kernel) (by decide) (by decide), simple_atLeast (by decide),
      always_pure (.str (by decide +kernel) (by decide)), by simp⟩
  · refine flat_object (by simp only [List.map]; decide +kernel) ?_
    simp only [List.forall_mem_cons]
    exact ⟨mapId_simple, mapId_simple, by simp⟩
  · refine flat_object (by simp only [List.map]; decide +kernel) ?_
    simp only [List.forall_mem_cons]
    exact ⟨simple_numbered (by decide +kernel) (by decide) (by decide),
      simple_atLeast (by decide), by simp⟩
  · refine flat_object (by simp only [List.map]; decide +kernel) ?_
    simp only [List.forall_mem_cons]
    exact ⟨simple_numbered (by decide +kernel) (by decide) (by decide),
      simple_either (by decide +kernel) (by decide +kernel), simple_atLeast (by decide), by simp⟩
  · refine always_bind (always_floorRandom (n := 98) (by decide)) fun k hk =>
      flat_object (by simp only [List.map]; decide +kernel) ?_
    simp only [List.forall_mem_cons]
    exact ⟨always_pure (.nat (by omega)), always_pure (.nat (by omega)), by simp⟩
  · refine flat_object (by simp only [List.map]; decide +kernel) ?_
    simp only [List.forall_mem_cons]
    exact ⟨mapId_simple, simple_either (by decide +kernel) (by decide +kernel), by simp⟩

theorem pickFrom_mem {activities : List ActivitySpec} {r : ℚ} {activity : ActivitySpec}
    (h : pickFrom M activities r = some activity) : activity ∈ activities := by
  induction activities generalizing r with
  | nil => cases h
  | cons first rest ih =>
    rw [pickFrom] at h
    split_ifs at h
    · exact Option.some.inj h ▸ List.mem_cons_self
    · exact List.mem_cons_of_mem _ (ih h)

theorem always_pickActivity : Always ActivitySpec.Plain (pickActivity M) := by
  refine always_bind always_true fun r _ => always_pure ?_
  cases hpick : pickFrom M (ACTIVITIES M) (M.round
      (r * (((ACTIVITIES M).map ActivitySpec.weight).sum : ℕ))) with
  | none => exact monsterKill_plain
  | some activity => exact activities_plain activity (pickFrom_mem hpick)

theorem always_purchasePayload :
    Always (fun payload => ∃ sale : Sale, payload = sale.payload) (purchasePayload M) := by
  refine always_bind (always_floorRandom (n := 3) (by decide)) fun k hk => ?_
  have horder : Always (Label 64) (do
      let uuid ← draw Source.uuid
      pure (.str (js "ORDER-" ++ uuid)) : Gen Json) := by
    refine always_bind (always_draw (p := fun uuid => isUuidV4 uuid = true) fun s i => s.uuid_v4 i)
      fun uuid huuid => always_pure ⟨_, rfl, ?_, ?_⟩
    · exact Text.append (by decide +kernel) (text_of_isInstanceUuid (isUuidV4_spec huuid).1)
    · have hlength : (js "ORDER-" ++ uuid).length = 42 := by
        rw [List.length_append, (isUuidV4_spec huuid).2]
        rfl
      omega
  have hproduct : Always (Label 64) (numbered M (js "cash-item-") 10) :=
    label_numbered (k := 2) (by decide +kernel) (by decide) (by decide) (by decide) (by decide)
  have hname : Always (Label 128) (numbered M (js "캐시 아이템 ") 10) :=
    label_numbered (k := 2) (by decide +kernel) (by decide) (by decide) (by decide) (by decide)
  have hamount : Always (fun j => ∃ n ≤ 22000, j = .nat n) (do
      let price ← floorRandom M 50
      pure (.nat ((1 + k) * (500 + price * 100))) : Gen Json) := by
    refine always_bind (always_floorRandom (n := 50) (by decide)) fun price hprice =>
      always_pure ⟨_, ?_, rfl⟩
    calc (1 + k) * (500 + price * 100) ≤ 4 * 5500 := Nat.mul_le_mul (by omega) (by omega)
      _ = 22000 := rfl
  refine (always_object_cons horder (always_object_cons hproduct (always_object_cons hname
    (always_object_cons (p := fun j => j = .nat (1 + k)) (always_pure rfl)
      (always_object_cons hamount
        (always_object_cons (p := fun j => j = .str (js "KRW")) (always_pure rfl)
          (always_pure (p := fun rest => rest = []) rfl))))))).mono ?_
  rintro _ ⟨_, _, rfl, ⟨orderId, rfl, horder⟩, _, _, rfl, ⟨productId, rfl, hproduct⟩, _, _, rfl,
    ⟨productName, rfl, hname⟩, _, _, rfl, rfl, _, _, rfl, ⟨amountMinor, hamount, rfl⟩, _, _, rfl,
    rfl, rfl⟩
  exact ⟨⟨orderId, productId, productName, 1 + k, amountMinor, horder, hproduct, hname, by omega,
    hamount⟩, rfl⟩

end Payloads

/-! ### Events -/

/-- What an event of a certain type carries. -/
inductive Content : JsString → List (JsString × Json) → Prop
  | plain {type : EventType} {payload : List (JsString × Json)} (other : type ≠ .shopPurchase)
    (flat : Flat payload) : Content type.name payload
  | sale (sale : Sale) : Content EventType.shopPurchase.name sale.payload

/-- The largest user id of the last block. -/
def MAX_USER_ID : ℕ := 900719925474091

/-- A generator of an instance. -/
structure EventGenerator.Built (config : SenderConfig) (g : EventGenerator) : Prop where
  config_eq : g.config = config
  bootId : Text g.bootId ∧ g.bootId.length ≤ 8
  userIdBase : g.userIdBase = instanceUserIdBase config.instanceId

structure GeneratedEvent where
  bootId : JsString
  eventId : JsString
  userId : ℕ
  now : ℕ
  type : JsString
  payload : List (JsString × Json)
  bootId_text : Text bootId ∧ bootId.length ≤ 8
  eventId_v4 : isUuidV4 eventId = true
  userId_le : userId ≤ MAX_USER_ID
  now_le : now / 86400000 ≤ MAX_DAY
  content : Content type payload

def GeneratedEvent.toJson (e : GeneratedEvent) (instanceId : JsString) : Json :=
  eventJson instanceId e.bootId e.eventId e.userId e.now e.type e.payload

section Events

variable {M : JsMath} {config : SenderConfig} {g : EventGenerator}

theorem instanceUserIdBase_le (instanceId : JsString) :
    instanceUserIdBase instanceId + 30 ≤ MAX_USER_ID := by
  have hmod := Nat.mod_lt (ofDigits 16 digitValue (instanceId.filter fun u => u ≠ 0x2d))
    (show 0 < 30023997515803 by decide)
  rw [instanceUserIdBase, MAX_USER_ID]
  omega

theorem always_new (config : SenderConfig) :
    Always (EventGenerator.Built config) (EventGenerator.new config) := by
  refine always_bind (always_draw (p := fun uuid => isUuidV4 uuid = true) fun s i => s.uuid_v4 i)
    fun uuid huuid => always_pure ⟨rfl, ⟨?_, List.length_take_le _ _⟩, rfl⟩
  exact fun u hu => text_of_isInstanceUuid (isUuidV4_spec huuid).1 u (List.mem_of_mem_take hu)

theorem always_makeEvent (hconfig : config.Checked) (hg : g.Built config) :
    Always (fun event => ∃ e : GeneratedEvent, event = e.toJson config.instanceId)
      (makeEvent M g) := by
  obtain ⟨users, husers, hthirty⟩ := hconfig.users
  unfold makeEvent
  rw [hg.config_eq, husers, hg.userIdBase]
  refine always_bind (always_floorRandom (hthirty.trans (by decide))) fun k hk => ?_
  refine always_bind (always_draw (p := fun uuid => isUuidV4 uuid = true) fun s i => s.uuid_v4 i)
    fun eventId heventId => ?_
  refine always_bind (always_draw (p := fun now => now / 86400000 ≤ MAX_DAY) fun s i => s.now_le i)
    fun now hnow => always_bind always_true fun r _ => ?_
  have hbase := instanceUserIdBase_le config.instanceId
  have hmake : ∀ type payload, Content type payload → ∃ e : GeneratedEvent,
      eventJson config.instanceId g.bootId eventId (instanceUserIdBase config.instanceId + k) now
        type payload = e.toJson config.instanceId := fun type payload hcontent =>
    ⟨⟨g.bootId, eventId, _, now, type, payload, hg.bootId, heventId, by omega, hnow, hcontent⟩, rfl⟩
  have hplain : ∀ (t : EventType), t ≠ .shopPurchase → ∀ payload, Flat payload →
      ∃ e : GeneratedEvent, eventJson config.instanceId g.bootId eventId
        (instanceUserIdBase config.instanceId + k) now t.name payload
          = e.toJson config.instanceId :=
    fun t hother payload hflat => hmake _ _ (.plain hother hflat)
  split_ifs
  · exact always_bind always_loginPayload fun payload hpayload =>
      always_pure (hplain .sessionLogin (by decide) payload hpayload)
  · exact always_bind always_logoutPayload fun payload hpayload =>
      always_pure (hplain .sessionLogout (by decide) payload hpayload)
  · refine always_bind always_purchasePayload ?_
    rintro _ ⟨sale, rfl⟩
    exact always_pure (hmake _ _ (.sale sale))
  · refine always_bind always_pickActivity fun activity hactivity => ?_
    obtain ⟨type, hother, htype⟩ := hactivity.type
    refine always_bind hactivity.payload fun payload hpayload => always_pure ?_
    rw [htype]
    exact hplain type hother payload hpayload

/-- **A time step makes generated events.** -/
theorem always_tick (fuel : ℕ) (dtMs : ℚ) (hconfig : config.Checked) (hg : g.Built config) :
    Always (fun result => ∀ events ∈ result, ∀ event ∈ events,
      ∃ e : GeneratedEvent, event = e.toJson config.instanceId) (tick M g fuel dtMs) := by
  refine always_bind always_true fun count _ => ?_
  cases count with
  | none => exact always_pure fun events hevents => absurd hevents (by simp)
  | some count =>
    refine always_bind (always_replicateM (always_makeEvent hconfig hg) count) fun events hall => ?_
    refine always_pure fun events' hevents => ?_
    obtain rfl := Option.mem_some_iff.mp hevents
    exact hall

/-- The loop of `poisson` ends as soon as the product of its draws has fallen to the limit. -/
theorem poissonLoop_isSome (s : Source) {limit : ℚ} {n : ℕ} : ∀ {i k : ℕ} {p : ℚ},
    (List.range' i (n + 1)).foldl (fun p j => M.round (p * s.random j)) p ≤ limit →
      ((poissonLoop M limit (n + 1) k p) s i).1.isSome = true := by
  induction n with
  | zero =>
    intro i k p h
    have hstep : M.round (p * s.random i) ≤ limit := h
    show ((if limit < M.round (p * s.random i) then _ else pure (some k) : Gen (Option ℕ)) s
      (i + 1)).1.isSome = true
    rw [if_neg (not_lt.mpr hstep)]
    rfl
  | succ n ih =>
    intro i k p h
    show ((if limit < M.round (p * s.random i) then
      poissonLoop M limit (n + 1) (k + 1) (M.round (p * s.random i)) else pure (some k) :
        Gen (Option ℕ)) s (i + 1)).1.isSome = true
    split_ifs
    · exact ih h
    · rfl

end Events

end Sender
