/-
The data set generator (`generateEvents` of `scripts/generate-events.ts`).

Its random numbers are those of a linear congruential generator with a seed, and its UUIDs are
made of them. The days of a data set begin at an epoch day, which the start date names.

* `createRng`, `scriptSource` — the random numbers of a seed; no product of the generator reaches
  `2 ^ 53`;
* `rngUuid` — 32 draws;
* `userDay`, `duplicate`, `shuffle`, `generateEvents` — the data set.
-/
import LogStack.LinearCongruential
import LogStack.MetricsService
import LogStack.UserBlocks

open Calendar (MAX_DAY toISOString)
open LinearCongruential (next)
open Sampling
open Sender (Gen JsMath NearestMath Source floorRandom numbered loginPayload object pickActivity)

namespace Dataset

/-! ### Random numbers -/

/-- `seed >>> 0 || 1` -/
def initialState (seed : ℤ) : ℕ :=
  let state := (seed % 2 ^ 32).toNat
  if state = 0 then 1 else state

/-- `state` after some calls of `rng`. -/
def state (seed : ℤ) (calls : ℕ) : ℕ :=
  (next 1664525 1013904223 (2 ^ 32))^[calls] (initialState seed)

/-- What the call after `i` others returns. -/
def createRng (seed : ℤ) (i : ℕ) : ℚ := state seed (i + 1) / 2 ^ 32

theorem state_lt (seed : ℤ) (calls : ℕ) : state seed (calls + 1) < 2 ^ 32 := by
  rw [state, Function.iterate_succ_apply']
  exact Nat.mod_lt _ (by decide)

theorem createRng_unit (seed : ℤ) (i : ℕ) : 0 ≤ createRng seed i ∧ createRng seed i < 1 := by
  refine ⟨by rw [createRng]; positivity, ?_⟩
  rw [createRng, div_lt_one (by positivity)]
  exact_mod_cast state_lt seed i

/-- The script draws random numbers only. -/
def scriptSource (seed : ℤ) : Source where
  random := createRng seed
  random_unit := createRng_unit seed
  uuid _ := js "00000000-0000-4000-8000-000000000000"
  uuid_v4 _ := by decide +kernel
  now _ := 0
  now_le _ := Nat.zero_le _

/-! ### UUIDs -/

/-- `toString(16)` of a number below 16. -/
def hexDigit (k : ℕ) : UInt16 := if k < 10 then (0x30 + k).toUInt16 else (0x57 + k).toUInt16

/-- The digits with their version, 4, and their variant, `(… & 0x3) | 0x8`. -/
def stamped (nibbles : List ℕ) : List ℕ :=
  let nibbles := nibbles.set 12 4
  nibbles.set 16 (nibbles.getD 16 0 % 4 + 8)

def hyphenated (s : JsString) : JsString :=
  s.take 8 ++ js "-" ++ (s.drop 8).take 4 ++ js "-" ++ (s.drop 12).take 4 ++ js "-" ++
    (s.drop 16).take 4 ++ js "-" ++ s.drop 20

section Generate

variable (M : JsMath)

def rngUuid : Gen JsString := do
  let nibbles ← replicateM (floorRandom M 16) 32
  pure (hyphenated ((stamped nibbles).map hexDigit))

/-! ### Options -/

/-- The seed is a safe integer. -/
structure GenerateOptions where
  users : ℕ
  startDay : ℕ
  days : ℕ
  eventsPerUserPerDay : Option ℚ
  duplicateRatio : Option ℚ
  shuffle : Bool
  seed : Option { z : ℤ // |z| ≤ 2 ^ 53 }
  instanceId : Option JsString

def DEFAULT_INSTANCE_ID : JsString := js "0fab3f2e-1894-41cd-b915-f99440a3ff32"

def GenerateOptions.seedNumber (o : GenerateOptions) : ℤ := (o.seed.map Subtype.val).getD 1

def GenerateOptions.perUserPerDay (o : GenerateOptions) : ℚ := o.eventsPerUserPerDay.getD 20

variable (o : GenerateOptions)

def iso (dayOffset msOfDay : ℕ) : JsString :=
  toISOString ((o.startDay + dayOffset) * 86400000 + msOfDay)

/-! ### A day of a user -/

/-- The day, the user and what they share in a session. -/
structure Session where
  day : ℕ
  user : ℕ
  sessionId : JsString

def Session.userId (session : Session) : ℕ := 1000 + session.user

/-- `{ ...base(n), event_type, payload }` -/
def eventJson (session : Session) (eventId : JsString) (n : ℕ) (type : JsString)
    (payload : List (JsString × Json)) : Json := .obj [
  (js "instance_id", .str (o.instanceId.getD DEFAULT_INSTANCE_ID)),
  (js "event_id", .str eventId),
  (js "user_id", .nat session.userId),
  (js "character_id", .nat (session.userId * 10 + 1)),
  (js "session_id", .str session.sessionId),
  (js "channel_id", .str (js "channel-0" ++ decimal (1 + session.user % 3))),
  (js "occurred_at", .str (iso o session.day n)),
  (js "event_type", .str type),
  (js "payload", .obj payload)]

/-- `Math.floor(rng() * a * b * …)` -/
def floorProduct (factors : List ℕ) : Gen ℕ := do
  let r ← draw Source.random
  pure ⌊factors.foldl (fun (q : ℚ) (n : ℕ) => M.round (q * n)) r⌋₊

/-- `base` draws the id before the payload draws. -/
def makeEvent (session : Session) (n : ℕ) (type : JsString)
    (payload : Gen (List (JsString × Json))) : Gen Json := do
  let eventId ← rngUuid M
  let fields ← payload
  pure (eventJson o session eventId n type fields)

def makeActivity (session : Session) (loginMs : ℕ) : Gen Json := do
  let k ← floorProduct M [3, 3600, 1000]
  let activity ← pickActivity M
  makeEvent M o session (loginMs + k) activity.type activity.payload

def purchasePayload (orderSeq quantity : ℕ) : Gen (List (JsString × Json)) := object [
  (js "order_id", pure (.str (js "ORDER-GEN-" ++ Metrics.decimalText o.seedNumber ++ js "-" ++
    decimal orderSeq))),
  (js "product_id", numbered M (js "cash-item-") 10),
  (js "product_name", numbered M (js "캐시 아이템 ") 10),
  (js "quantity", pure (.nat quantity)),
  (js "amount_minor", do
    let price ← floorRandom M 50
    pure (.nat (quantity * (500 + price * 100)))),
  (js "currency", pure (.str (js "KRW")))]

def makePurchase (session : Session) (loginMs orderSeq : ℕ) : Gen Json := do
  let k ← floorRandom M 3
  let offset ← floorProduct M [3600, 1000]
  makeEvent M o session (loginMs + offset) (js "shop_purchase")
    (purchasePayload M o orderSeq (1 + k))

def logoutPayload : Gen (List (JsString × Json)) := object [
  (js "duration_ms", pure (.nat (4 * 3600 * 1000))),
  (js "reason", pure (.str (js "user_quit")))]

def makeLogout (session : Session) (loginMs : ℕ) : Gen Json :=
  makeEvent M o session (loginMs + 4 * 3600 * 1000) (js "session_logout") logoutPayload

/-- `Math.max(1, Math.round(perUserPerDay * (0.5 + rng())))` -/
def activityCount : Gen ℕ := do
  let r ← draw Source.random
  pure (max 1 ⌊M.round (o.perUserPerDay * M.round (1 / 2 + r)) + 1 / 2⌋).toNat

/-- The events of a session, and the number of orders after it. -/
def playSession (session : Session) (loginMs orderSeq : ℕ) : Gen (List Json × ℕ) := do
  let login ← makeEvent M o session loginMs (js "session_login") (loginPayload M)
  let count ← activityCount M o
  let activities ← replicateM (makeActivity M o session loginMs) count
  let r ← draw Source.random
  if r < M.round (15 / 100) then do
    let purchase ← makePurchase M o session loginMs (orderSeq + 1)
    let logout ← makeLogout M o session loginMs
    pure (login :: activities ++ [purchase, logout], orderSeq + 1)
  else do
    let logout ← makeLogout M o session loginMs
    pure (login :: activities ++ [logout], orderSeq)

/-- After the first day, four users in five come. -/
def userDay (d u orderSeq : ℕ) : Gen (List Json × ℕ) := do
  let r ← draw Source.random
  if ¬r < M.round (8 / 10) ∧ 0 < d then pure ([], orderSeq)
  else do
    let k ← floorRandom M 1000000
    let sessionId := js "session-u" ++ decimal (1000 + u) ++ js "-d" ++ decimal d ++ js "-" ++
      decimal k
    let loginMs ← floorProduct M [20, 3600, 1000]
    playSession M o ⟨d, u, sessionId⟩ loginMs orderSeq

/-! ### The data set -/

/-- The two loops: all users of a day, then the next day. -/
def userDays : List (ℕ × ℕ) :=
  (List.range o.days).flatMap fun d => (List.range o.users).map fun u => (d, u + 1)

def play : List (ℕ × ℕ) → ℕ → Gen (List Json)
  | [], _ => pure []
  | (d, u) :: rest, orderSeq => do
    let (events, orderSeq) ← userDay M o d u orderSeq
    let more ← play rest orderSeq
    pure (events ++ more)

/-- Events that come again; `{ ...undefined }` is an empty object. -/
def duplicate : ℕ → List Json → Gen (List Json)
  | 0, events => pure events
  | n + 1, events => do
    let i ← floorRandom M events.length
    duplicate n (events ++ [events.getD i (.obj [])])

def duplicateCount (events : ℕ) : ℕ :=
  let duplicateRatio := o.duplicateRatio.getD 0
  if 0 < duplicateRatio then ⌊M.round (events * duplicateRatio)⌋₊ else 0

/-- Fisher–Yates, from the index `i` down. -/
def shuffle : ℕ → Array Json → Gen (Array Json)
  | 0, events => pure events
  | i + 1, events => do
    let j ← floorRandom M (i + 2)
    shuffle i (events.swapIfInBounds (i + 1) j)

def generateEvents : Gen (List Json) := do
  let first ← play M o (userDays o) 0
  let events ← duplicate M (duplicateCount M o first.length) first
  if o.shuffle then do
    let shuffled ← shuffle M (events.length - 1) events.toArray
    pure shuffled.toList
  else pure events

end Generate

end Dataset
