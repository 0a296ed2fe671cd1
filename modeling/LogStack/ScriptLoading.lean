/-
A generated data set on the receiver.

* `VisitEvent.toPlain` — an event of a visit has the values that the receiver checks;
* `Shows` — tables that show the visits to the metrics, and nothing else;
* `shows_of_reflects` — the events of a data set in the tables are such tables;
* `Observed`, `Shows.observed` — the users and the revenue of each day;
* `loaded_data_set` — the loader leaves such tables, whatever is copied or shuffled.
-/
import LogStack.ArrivalOrder
import LogStack.EventLoader
import LogStack.ScriptDataset

open Calendar (MAX_DAY toISOString utcDay)
open Ingestion
open Pipeline (Attempt SendSummary exists_summary loading_of_take normalized? ordinary_batchJson
  outcomes raws rejections templateLabel)
open Sender (JsMath NearestMath PlainEvent Text batchBodyByteLength batchJson isInstanceUuid
  nearestMath)

namespace Dataset

/-! ### Events that the receiver takes -/

/-- The data set ends in the year 9999, and its instance is a UUID. -/
structure GenerateOptions.Loadable (o : GenerateOptions) : Prop extends o.Moderate where
  calendar : o.startDay + o.days ≤ MAX_DAY + 1
  instanceId_uuid : isInstanceUuid (o.instanceId.getD DEFAULT_INSTANCE_ID) = true

section Plain

variable {o : GenerateOptions} {v : Visit}

theorem mem_userDays {p : ℕ × ℕ} :
    p ∈ userDays o ↔ p.1 < o.days ∧ 1 ≤ p.2 ∧ p.2 ≤ o.users := by
  obtain ⟨d, u⟩ := p
  simp only [userDays, List.mem_flatMap, List.mem_range, List.mem_map, Prod.mk.injEq]
  constructor
  · rintro ⟨d', hd, u', hu, rfl, rfl⟩
    exact ⟨hd, by omega, by omega⟩
  · rintro ⟨hd, hlow, hhigh⟩
    exact ⟨d, hd, u - 1, by omega, rfl, by omega⟩

/-- The numbers of days and users are bounded by that of the draws. -/
theorem key_le (h : o.Moderate) (hkey : v.key ∈ userDays o) :
    v.session.day < 2 ^ 32 ∧ 1 ≤ v.session.user ∧ v.session.user ≤ 2 ^ 32 := by
  obtain ⟨hday, hlow, hhigh⟩ := mem_userDays.mp hkey
  have hday : v.session.day < o.days := hday
  have hhigh : v.session.user ≤ o.users := hhigh
  have hdraws := (Nat.le_mul_of_pos_right (o.days * o.users)
    (show 0 < 107 + 37 * mostActivities o by omega)).trans h.draws
  have hdays : o.days ≤ o.days * o.users := Nat.le_mul_of_pos_right _ (by omega)
  have husers : o.users ≤ o.days * o.users := Nat.le_mul_of_pos_left _ (by omega)
  exact ⟨by omega, hlow, by omega⟩

theorem sessionId_text (h : o.Moderate) (hkey : v.key ∈ userDays o) :
    Text v.session.sessionId ∧ 1 ≤ v.session.sessionId.length ∧
      v.session.sessionId.length ≤ 64 := by
  obtain ⟨hday, -, huser⟩ := key_le h hkey
  obtain ⟨k, hk, hid⟩ := v.sessionId_eq
  have huserId : v.session.userId = 1000 + v.session.user := rfl
  have hone := Sender.length_decimal_le (n := v.session.userId) (k := 10) (by decide) (by omega)
  have htwo := Sender.length_decimal_le (n := v.session.day) (k := 10) (by decide) (by omega)
  have hthree := Sender.length_decimal_le (n := k) (k := 6) (by decide) hk
  have hstart : (js "session-u").length = 9 ∧ (js "-d").length = 2 ∧ (js "-").length = 1 :=
    ⟨rfl, rfl, rfl⟩
  rw [hid]
  refine ⟨?_, ?_, ?_⟩
  · exact (((((by decide +kernel : Text (js "session-u")).append (Sender.text_decimal _)).append
      (by decide +kernel)).append (Sender.text_decimal _)).append (by decide +kernel)).append
      (Sender.text_decimal _)
  · simp only [List.length_append, hstart]
    omega
  · simp only [List.length_append, hstart]
    omega

theorem channelId_text (v : Visit) :
    Text (js "channel-0" ++ decimal (1 + v.session.user % 3)) ∧
      1 ≤ (js "channel-0" ++ decimal (1 + v.session.user % 3)).length ∧
      (js "channel-0" ++ decimal (1 + v.session.user % 3)).length ≤ 64 := by
  have hdigits : (decimal (1 + v.session.user % 3)).length ≤ 1 :=
    Sender.length_decimal_le (by decide) (by omega)
  have hstart : (js "channel-0").length = 9 := rfl
  simp only [List.length_append, hstart]
  exact ⟨(by decide +kernel : Text (js "channel-0")).append (Sender.text_decimal _), by omega,
    by omega⟩

/-- The time of an event, in milliseconds. -/
def occurredAt (o : GenerateOptions) (v : Visit) (e : VisitEvent) : ℕ :=
  (o.startDay + v.session.day) * 86400000 + e.ms

theorem occurredAt_le (h : o.Loadable) (hkey : v.key ∈ userDays o) {e : VisitEvent}
    (he : e ∈ v.events) : occurredAt o v e / 86400000 = o.startDay + v.session.day ∧
      occurredAt o v e / 86400000 ≤ MAX_DAY := by
  have hday : v.session.day < o.days := (mem_userDays.mp hkey).1
  have hcalendar := h.calendar
  have hms := (v.ms_lt e he).2.2
  rw [occurredAt]
  omega

theorem userId_lt (h : o.Moderate) (hkey : v.key ∈ userDays o) :
    v.session.userId < 2 ^ 53 ∧ v.session.userId * 10 + 1 < 2 ^ 53 := by
  obtain ⟨-, -, huser⟩ := key_le h hkey
  rw [Session.userId]
  omega

def VisitEvent.toPlain (h : o.Loadable) (hkey : v.key ∈ userDays o) (e : VisitEvent)
    (he : e ∈ v.events) : PlainEvent where
  instanceId := o.instanceId.getD DEFAULT_INSTANCE_ID
  eventId := e.eventId
  userId := v.session.userId
  characterId := v.session.userId * 10 + 1
  sessionId := v.session.sessionId
  channelId := js "channel-0" ++ decimal (1 + v.session.user % 3)
  ms := occurredAt o v e
  type := e.type
  payload := e.payload
  instanceId_uuid := h.instanceId_uuid
  eventId_v4 := e.eventId_v4
  userId_lt := (userId_lt h.toModerate hkey).1
  characterId_lt := (userId_lt h.toModerate hkey).2
  sessionId_text := sessionId_text h.toModerate hkey
  channelId_text := channelId_text v
  ms_le := (occurredAt_le h hkey he).2
  content := e.content

theorem toJson_toPlain (h : o.Loadable) (hkey : v.key ∈ userDays o) (e : VisitEvent)
    (he : e ∈ v.events) : (e.toPlain h hkey he).toJson = e.toJson o v.session := rfl

/-- The service takes the event as it is. -/
theorem exists_accepted (L : StandardLibraries) (P : StandardPostgres) (h : o.Loadable)
    (hkey : v.key ∈ userDays o) {e : VisitEvent} (he : e ∈ v.events) :
    ∃ n, acceptedEvent? L.toLibraries (L.copyOf (e.toJson o v.session)) = some n ∧
      InDomain P.toPostgres n ∧ (e.toPlain h hkey he).Describes n := by
  obtain ⟨n, hvalid, ⟨-, hdomain⟩, hdescribes⟩ := (e.toPlain h hkey he).accepted L P
  refine ⟨n, ?_, hdomain, hdescribes⟩
  rw [← toJson_toPlain h hkey e he, L.copyOf_ordinary _
    (ordinary_succ (ordinary_succ (e.toPlain h hkey he).ordinary)) (e.toPlain h hkey he).plain]
  exact acceptedEvent?_eq_some.mpr hvalid

end Plain

/-! ### Ids -/

theorem mem_hyphenated {s : JsString} {u : UInt16} (h : u ∈ hyphenated s) : u = 0x2d ∨ u ∈ s := by
  have hminus : js "-" = [0x2d] := by decide +kernel
  simp only [hyphenated, hminus, List.mem_append, List.mem_singleton] at h
  rcases h with (((((((h | h) | h) | h) | h) | h) | h) | h) | h
  · exact .inr (List.mem_of_mem_take h)
  · exact .inl h
  · exact .inr (List.mem_of_mem_drop (List.mem_of_mem_take h))
  · exact .inl h
  · exact .inr (List.mem_of_mem_drop (List.mem_of_mem_take h))
  · exact .inl h
  · exact .inr (List.mem_of_mem_drop (List.mem_of_mem_take h))
  · exact .inl h
  · exact .inr (List.mem_of_mem_drop h)

/-- The script writes its UUIDs in lower case. -/
theorem toLowerCase_uuidAt (seed : ℤ) (i : ℕ) :
    JsString.toLowerCase (uuidAt seed i) = uuidAt seed i := by
  have hdigit : ∀ k < 16, (0x41 ≤ hexDigit k && hexDigit k ≤ 0x5A) = false := by decide
  refine (List.map_congr_left fun u hu => ?_).trans (List.map_id _)
  have hupper : (0x41 ≤ u && u ≤ 0x5A) = false := by
    rcases mem_hyphenated hu with rfl | hu
    · decide
    · obtain ⟨n, hn, rfl⟩ := List.mem_map.mp hu
      exact hdigit n (stamped_lt (fun _ => mem_nibbles) n hn)
  rw [hupper]
  rfl

/-- The events of all visits, each with its visit. -/
def moments (visits : List Visit) : List (Visit × VisitEvent) :=
  visits.flatMap fun v => v.events.map (Prod.mk v)

theorem mem_moments {visits : List Visit} {p : Visit × VisitEvent} :
    p ∈ moments visits ↔ p.1 ∈ visits ∧ p.2 ∈ p.1.events := by
  simp only [moments, List.mem_flatMap, List.mem_map]
  constructor
  · rintro ⟨v, hv, e, he, rfl⟩
    exact ⟨hv, he⟩
  · rintro ⟨hv, he⟩
    exact ⟨p.1, hv, p.2, he, rfl⟩

theorem map_eventId_moments (visits : List Visit) :
    (moments visits).map (fun p => p.2.eventId) = visits.flatMap Visit.eventIds := by
  rw [moments, List.map_flatMap]
  refine List.flatMap_congr fun v _ => ?_
  rw [List.map_map]
  rfl

theorem mem_toJson {o : GenerateOptions} {visits : List Visit} {j : Json} :
    j ∈ visits.flatMap (Visit.toJson o) ↔
      ∃ p ∈ moments visits, j = p.2.toJson o p.1.session := by
  simp only [List.mem_flatMap, Visit.toJson, List.mem_map]
  constructor
  · rintro ⟨v, hv, e, he, rfl⟩
    exact ⟨(v, e), mem_moments.mpr ⟨hv, he⟩, rfl⟩
  · rintro ⟨⟨v, e⟩, hp, rfl⟩
    obtain ⟨hv, he⟩ := mem_moments.mp hp
    exact ⟨v, hv, e, he, rfl⟩

/-! ### The tables -/

section Tables

variable {M : NearestMath} {o : GenerateOptions} {visits : List Visit} {L : StandardLibraries}
  {P : StandardPostgres} {es : List Event}

theorem OfSeed.key_mem (hseed : OfSeed M o visits) {p : Visit × VisitEvent}
    (hp : p ∈ moments visits) : p.1.key ∈ userDays o :=
  hseed.keys.mem (List.mem_map_of_mem (mem_moments.mp hp).1)

/-- What the service makes of an event of a visit. -/
def Becomes (L : StandardLibraries) (o : GenerateOptions) (p : Visit × VisitEvent)
    (n : NormalizedEvent) : Prop :=
  acceptedEvent? L.toLibraries (L.copyOf (p.2.toJson o p.1.session)) = some n

theorem exists_becomes (P : StandardPostgres) (h : o.Loadable) (hseed : OfSeed M o visits)
    {p : Visit × VisitEvent} (hp : p ∈ moments visits) :
    ∃ n, Becomes L o p n ∧ InDomain P.toPostgres n ∧
      (p.2.toPlain h (hseed.key_mem hp) (mem_moments.mp hp).2).Describes n :=
  exists_accepted L P h (hseed.key_mem hp) (mem_moments.mp hp).2

theorem becomes_spec (P : StandardPostgres) (h : o.Loadable) (hseed : OfSeed M o visits)
    {p : Visit × VisitEvent} (hp : p ∈ moments visits) {n : NormalizedEvent}
    (hn : Becomes L o p n) : InDomain P.toPostgres n ∧
      (p.2.toPlain h (hseed.key_mem hp) (mem_moments.mp hp).2).Describes n := by
  obtain ⟨n', hn', hspec⟩ := exists_becomes (L := L) P h hseed hp
  obtain rfl := Option.some.inj (hn.symm.trans hn')
  exact hspec

/-- An event is stored under the id that the script has written. -/
theorem eventId_of_becomes (P : StandardPostgres) (h : o.Loadable) (hseed : OfSeed M o visits)
    {p : Visit × VisitEvent} (hp : p ∈ moments visits) {n : NormalizedEvent}
    (hn : Becomes L o p n) : n.eventId = p.2.eventId := by
  have hid : n.eventId = p.2.eventId.toLowerCase := (becomes_spec P h hseed hp hn).2.eventId
  obtain ⟨i, hi⟩ := hseed.eventIds_uuid p.2.eventId
    (map_eventId_moments visits ▸ List.mem_map_of_mem hp)
  rw [hid, hi, toLowerCase_uuidAt]

/-- Equal ids are those of one event. -/
theorem becomes_unique (P : StandardPostgres) (h : o.Loadable) (hseed : OfSeed M o visits)
    {p p' : Visit × VisitEvent} (hp : p ∈ moments visits) (hp' : p' ∈ moments visits)
    {n n' : NormalizedEvent} (hn : Becomes L o p n) (hn' : Becomes L o p' n')
    (hid : n.eventId = n'.eventId) : n = n' := by
  rw [eventId_of_becomes P h hseed hp hn, eventId_of_becomes P h hseed hp' hn'] at hid
  have hnodup : ((moments visits).map fun p => p.2.eventId).Nodup :=
    map_eventId_moments visits ▸ hseed.eventIds
  obtain rfl := List.inj_on_of_nodup_map hnodup hp hp' hid
  exact Option.some.inj (hn.symm.trans hn')

/-- The events that the service takes from a data set. -/
theorem mem_accepted
    (hdata : ∀ j, j ∈ es.map Event.value ↔ j ∈ visits.flatMap (Visit.toJson o))
    {n : NormalizedEvent} :
    n ∈ (raws L.toLibraries es).filterMap (acceptedEvent? L.toLibraries) ↔
      ∃ p ∈ moments visits, Becomes L o p n := by
  simp only [raws, List.mem_filterMap, List.mem_map (f := L.copyOf), Becomes]
  constructor
  · rintro ⟨_, ⟨j, hj, rfl⟩, hn⟩
    obtain ⟨p, hp, rfl⟩ := mem_toJson.mp ((hdata j).mp hj)
    exact ⟨p, hp, hn⟩
  · rintro ⟨p, hp, hn⟩
    exact ⟨_, ⟨_, (hdata _).mpr (mem_toJson.mpr ⟨p, hp, rfl⟩), rfl⟩, hn⟩

/-- A data set in the tables. -/
theorem reflects_load (P : StandardPostgres) (h : o.Loadable) (hseed : OfSeed M o visits)
    (hdata : ∀ j, j ∈ es.map Event.value ↔ j ∈ visits.flatMap (Visit.toJson o)) :
    Metrics.Reflects P.toPostgres
      ((raws L.toLibraries es).filterMap (acceptedEvent? L.toLibraries))
      ((raws L.toLibraries es).foldl (step L.toLibraries P.toPostgres)
        Database.empty.toTables) := by
  set accepted := (raws L.toLibraries es).filterMap (acceptedEvent? L.toLibraries) with haccepted
  have hmoment : ∀ n ∈ accepted, ∃ p ∈ moments visits, Becomes L o p n :=
    fun n hn => (mem_accepted hdata).mp hn
  have hcanon : ∀ n ∈ accepted, n.eventId.toLowerCase = n.eventId := fun n hn => by
    obtain ⟨raw, -, hraw⟩ := List.mem_filterMap.mp hn
    exact canonical_of_acceptedEvent? hraw
  have hsame : ∀ n ∈ accepted, ∀ n' ∈ accepted, n.eventId = n'.eventId → n = n' := by
    intro n hn n' hn' hid
    obtain ⟨p, hp, hbecomes⟩ := hmoment n hn
    obtain ⟨p', hp', hbecomes'⟩ := hmoment n' hn'
    exact becomes_unique P h hseed hp hp' hbecomes hbecomes' hid
  have hdomain : ∀ n ∈ newEvents Database.empty.toTables accepted, InDomain P.toPostgres n := by
    intro n hn
    obtain ⟨p, hp, hbecomes⟩ := hmoment n (KeyedInsert.firstNew_sublist.mem hn)
    exact (becomes_spec P h hseed hp hbecomes).1
  rw [foldl_step_eq, ← haccepted, foldl_storeEvent hcanon fun n hn => (hdomain n hn).1]
  have hsub : ∀ n ∈ [] ++ accepted, n ∈ accepted := fun n hn => hn
  exact Metrics.reflects_empty.store hsub hsame hcanon (fun n hn => (hdomain n hn).1)
    fun n hn => (hdomain n hn).2

end Tables

/-! ### What the tables show -/

def VisitEvent.orderText (e : VisitEvent) : JsString :=
  (Json.string? ((Json.obj e.payload).get? (js "order_id"))).getD []

def VisitEvent.amount (e : VisitEvent) : ℤ :=
  (Json.integer? ((Json.obj e.payload).get? (js "amount_minor"))).getD 0

def payment (o : GenerateOptions) (v : Visit) (e : VisitEvent) : Payment :=
  ⟨v.session.userId, occurredAt o v e, e.amount, js "KRW"⟩

/-- The orders of the visits, and who paid what. -/
def sales (o : GenerateOptions) (visits : List Visit) : List (JsString × Payment) :=
  visits.filterMap fun v => v.purchase.map fun e => (e.orderText, payment o v e)

/-- The tables have the events and the payments of the visits. -/
structure Shows (o : GenerateOptions) (visits : List Visit) (db : Tables) : Prop where
  rows : db.gameEvents.length = (moments visits).length
  sightings : ∀ x, x ∈ db.gameEvents.map GameEventRow.sighting ↔ ∃ p ∈ moments visits,
    (p.2.type, (p.1.session.userId : ℤ), (occurredAt o p.1 p.2 : ℤ)) = x
  payments : (db.purchases.map PurchaseRow.payment).Perm ((sales o visits).map Prod.snd)

/-- What is found once in the images is the image of one thing only. -/
theorem eq_of_nodup_filterMap {α β : Type} {f : α → Option β} {xs : List α}
    (h : (xs.filterMap f).Nodup) {x y : α} (hx : x ∈ xs) (hy : y ∈ xs) {b : β}
    (hfx : f x = some b) (hfy : f y = some b) : x = y := by
  induction xs with
  | nil => exact absurd hx List.not_mem_nil
  | cons z zs ih =>
    cases hz : f z with
    | none =>
      rw [List.filterMap_cons_none hz] at h
      have hne : ∀ w, f w = some b → w ∈ z :: zs → w ∈ zs := by
        intro w hw hmem
        rcases List.mem_cons.mp hmem with rfl | hmem
        · exact absurd (hz.symm.trans hw) (by simp)
        · exact hmem
      exact ih h (hne x hfx hx) (hne y hfy hy)
    | some c =>
      rw [List.filterMap_cons_some hz, List.nodup_cons] at h
      obtain ⟨hnew, hrest⟩ := h
      have hnot : ∀ w, w ∈ zs → f w = some b → c ≠ b := by
        rintro w hw hfw rfl
        exact hnew (List.mem_filterMap.mpr ⟨w, hw, hfw⟩)
      have hcases : ∀ w, w ∈ z :: zs → f w = some b → (w = z ∧ c = b) ∨ w ∈ zs ∧ c ≠ b := by
        intro w hw hfw
        rcases List.mem_cons.mp hw with rfl | hw
        · exact .inl ⟨rfl, Option.some.inj (hz.symm.trans hfw)⟩
        · exact .inr ⟨hw, hnot w hw hfw⟩
      rcases hcases x hx hfx with ⟨hx, hc⟩ | ⟨hx, hc⟩ <;>
        rcases hcases y hy hfy with ⟨hy, hc'⟩ | ⟨hy, hc'⟩
      · rw [hx, hy]
      · exact absurd hc hc'
      · exact absurd hc' hc
      · exact ih hrest hx hy

section Purchases

variable {v : Visit} {e : VisitEvent}

theorem Visit.sale (he : v.purchase = some e) : ∃ sale : Sender.Sale, e.payload = sale.payload := by
  have htype := (v.purchase_eq e he).2.2
  have hcontent := e.content
  generalize e.payload = payload at hcontent
  rw [htype] at hcontent
  generalize hname : js "shop_purchase" = type at hcontent
  cases hcontent with
  | plain other flat => exact absurd (EventType.name_injective hname.symm) other
  | sale sale => exact ⟨sale, rfl⟩

/-- Only the login of a visit has the type of a login. -/
theorem Visit.eq_login (he : e ∈ v.events) (htype : e.type = EventType.sessionLogin.name) :
    e = v.login := by
  have hname : EventType.sessionLogin.name = js "session_login" := rfl
  rw [hname] at htype
  simp only [Visit.events, List.mem_append, List.mem_cons, List.not_mem_nil, or_false,
    Option.mem_toList] at he
  rcases he with ((rfl | he) | he) | rfl
  · rfl
  · exact absurd (htype ▸ (v.activities_eq e he).2.2) (by decide +kernel)
  · exact absurd (htype ▸ (v.purchase_eq e he).2.2) (by decide +kernel)
  · exact absurd (htype ▸ v.logout_eq.2) (by decide +kernel)

/-- Only the purchase of a visit has the type of a purchase. -/
theorem Visit.purchase_of_type (he : e ∈ v.events) (htype : e.type = EventType.shopPurchase.name) :
    v.purchase = some e := by
  have hname : EventType.shopPurchase.name = js "shop_purchase" := rfl
  rw [hname] at htype
  simp only [Visit.events, List.mem_append, List.mem_cons, List.not_mem_nil, or_false,
    Option.mem_toList] at he
  rcases he with ((rfl | he) | he) | rfl
  · rw [v.login_eq.2] at htype
    exact absurd htype (by decide +kernel)
  · exact absurd (htype ▸ (v.activities_eq e he).2.2) (by decide +kernel)
  · exact he
  · rw [v.logout_eq.2] at htype
    exact absurd htype (by decide +kernel)

theorem Visit.purchase_mem (he : v.purchase = some e) : e ∈ v.events := by
  simp [Visit.events, he]

theorem orderText_of_sale {sale : Sender.Sale} (h : e.payload = sale.payload) :
    e.orderText = sale.orderId := by
  rw [VisitEvent.orderText, h]
  rfl

theorem payment_of_sale (o : GenerateOptions) (v : Visit) {sale : Sender.Sale}
    (h : e.payload = sale.payload) :
    payment o v e = ⟨v.session.userId, occurredAt o v e, sale.amountMinor, js "KRW"⟩ := by
  have hamount : e.amount = sale.amountMinor := by
    rw [VisitEvent.amount, h]
    show (JsNumber.toInt? (.fin (sale.amountMinor : ℤ))).getD 0 = _
    rw [JsNumber.toInt?_ofInt]
    rfl
  rw [payment, hamount]

theorem Visit.order?_eq (v : Visit) :
    v.order? = (v.purchase.map VisitEvent.orderText).map .str := by
  cases he : v.purchase with
  | none => rw [Visit.order?, he]; rfl
  | some e =>
    obtain ⟨sale, hsale⟩ := v.sale he
    rw [Visit.order?, he, Option.map_some, Option.map_some, orderText_of_sale hsale,
      Option.bind_some, hsale]
    rfl

end Purchases

section Shown

variable {M : NearestMath} {o : GenerateOptions} {visits : List Visit} {L : StandardLibraries}
  {P : StandardPostgres}

theorem mem_sales {x : JsString × Payment} : x ∈ sales o visits ↔
    ∃ p ∈ moments visits, p.1.purchase = some p.2 ∧ (p.2.orderText, payment o p.1 p.2) = x := by
  simp only [sales, List.mem_filterMap, Option.map_eq_some_iff]
  constructor
  · rintro ⟨v, hv, e, he, rfl⟩
    exact ⟨(v, e), mem_moments.mpr ⟨hv, v.purchase_mem he⟩, he, rfl⟩
  · rintro ⟨⟨v, e⟩, hp, he, rfl⟩
    exact ⟨v, (mem_moments.mp hp).1, e, he, rfl⟩

theorem orderId_injective (o : GenerateOptions) : Function.Injective (orderId o) := by
  intro k k' h
  have hdigits : decimal k = decimal k' := List.append_cancel_left h
  rw [← JsString.ofDigits_decimal k, hdigits, JsString.ofDigits_decimal]

theorem OfSeed.order?_nodup (hseed : OfSeed M o visits) :
    (visits.filterMap Visit.order?).Nodup := by
  obtain ⟨k, -, horders⟩ := hseed.orders
  rw [horders]
  exact (List.nodup_range' 1).map fun _ _ h => orderId_injective o (Json.str.inj h)

theorem OfSeed.sales_nodup (hseed : OfSeed M o visits) : ((sales o visits).map Prod.fst).Nodup := by
  refine List.Nodup.of_map Json.str ?_
  have horders : ((sales o visits).map Prod.fst).map Json.str = visits.filterMap Visit.order? := by
    rw [sales, List.map_filterMap, List.map_filterMap]
    refine List.filterMap_congr fun v _ => ?_
    rw [v.order?_eq]
    cases v.purchase <;> rfl
  rw [horders]
  exact hseed.order?_nodup

/-- A purchase in the service is the purchase of a visit. -/
theorem sale_of_becomes (P : StandardPostgres) (h : o.Loadable) (hseed : OfSeed M o visits)
    {p : Visit × VisitEvent} (hp : p ∈ moments visits) {n : NormalizedEvent}
    (hn : Becomes L o p n) {q : Ingestion.Purchase} (hq : n.purchase = some q) :
    p.1.purchase = some p.2 ∧ ∃ sale : Sender.Sale,
      p.2.payload = sale.payload ∧ n.purchase = some sale.purchase := by
  have hdescribes := (becomes_spec P h hseed hp hn).2
  have htype : p.2.type = EventType.shopPurchase.name := by
    by_contra hother
    rw [hdescribes.other hother] at hq
    cases hq
  exact ⟨Visit.purchase_of_type (mem_moments.mp hp).2 htype, hdescribes.purchase htype⟩

/-- The row of a purchase is that of the visit's order. -/
theorem sale_of_row (h : o.Loadable) (hseed : OfSeed M o visits) {p : Visit × VisitEvent}
    (hp : p ∈ moments visits) {n : NormalizedEvent} (hn : Becomes L o p n) {row : PurchaseRow}
    (hrow : boundPurchase P.toPostgres n = some row) :
    p.1.purchase = some p.2 ∧ (row.orderId, row.payment) = (p.2.orderText, payment o p.1 p.2) := by
  obtain ⟨q, hq, -⟩ := Option.bind_eq_some_iff.mp hrow
  obtain ⟨hpurchase, sale, hsale, hbound⟩ := sale_of_becomes P h hseed hp hn hq
  obtain ⟨horder, hpayment⟩ := (becomes_spec P h hseed hp hn).2.payment hbound hrow
  refine ⟨hpurchase, ?_⟩
  rw [horder, hpayment, orderText_of_sale hsale, payment_of_sale o p.1 hsale]
  rfl

/-- Purchases with one order are one purchase. -/
theorem same_of_orderId (P : StandardPostgres) (h : o.Loadable) (hseed : OfSeed M o visits)
    {p p' : Visit × VisitEvent} (hp : p ∈ moments visits) (hp' : p' ∈ moments visits)
    {n n' : NormalizedEvent} (hn : Becomes L o p n) (hn' : Becomes L o p' n')
    {q q' : Ingestion.Purchase} (hq : n.purchase = some q) (hq' : n'.purchase = some q')
    (horder : varchar? 64 q.orderId = varchar? 64 q'.orderId) : n = n' ∧ q = q' := by
  obtain ⟨hpurchase, sale, hsale, hbound⟩ := sale_of_becomes P h hseed hp hn hq
  obtain ⟨hpurchase', sale', hsale', hbound'⟩ := sale_of_becomes P h hseed hp' hn' hq'
  obtain rfl := Option.some.inj (hq.symm.trans hbound)
  obtain rfl := Option.some.inj (hq'.symm.trans hbound')
  have hsame : sale.orderId = sale'.orderId := by
    have htext := Sender.PlainEvent.varchar?_text sale.orderId_text.1 sale.orderId_text.2.2
    have htext' := Sender.PlainEvent.varchar?_text sale'.orderId_text.1 sale'.orderId_text.2.2
    exact Option.some.inj (htext.symm.trans (horder.trans htext'))
  have hvisit : p.1 = p'.1 := by
    refine eq_of_nodup_filterMap hseed.order?_nodup (mem_moments.mp hp).1 (mem_moments.mp hp').1
      (b := .str sale.orderId) ?_ ?_
    · rw [Visit.order?_eq, hpurchase, Option.map_some, orderText_of_sale hsale]
      rfl
    · rw [Visit.order?_eq, hpurchase', Option.map_some, orderText_of_sale hsale', hsame]
      rfl
  have hevent : p.2 = p'.2 := Option.some.inj (hpurchase.symm.trans (hvisit ▸ hpurchase'))
  obtain rfl : p = p' := Prod.ext hvisit hevent
  obtain rfl := Option.some.inj (hn.symm.trans hn')
  exact ⟨rfl, Option.some.inj (hq.symm.trans hq')⟩

variable {events : List NormalizedEvent} {db : Database}

/-- Tables that hold the events of the visits show the visits. -/
theorem shows_of_reflects (h : o.Loadable) (hseed : OfSeed M o visits)
    (hevents : ∀ n, n ∈ events ↔ ∃ p ∈ moments visits, Becomes L o p n)
    (hreflects : Metrics.Reflects P.toPostgres events db.toTables) :
    Shows o visits db.toTables := by
  have hmoment : ∀ n ∈ events, ∃ p ∈ moments visits, Becomes L o p n :=
    fun n hn => (hevents n).mp hn
  have hagree : Metrics.Agreeing events := by
    refine ⟨fun n hn n' hn' hid => ?_, fun n hn n' hn' q hq q' hq' horder => ?_⟩
    · obtain ⟨p, hp, hbecomes⟩ := hmoment n hn
      obtain ⟨p', hp', hbecomes'⟩ := hmoment n' hn'
      exact becomes_unique P h hseed hp hp' hbecomes hbecomes' hid
    · obtain ⟨p, hp, hbecomes⟩ := hmoment n hn
      obtain ⟨p', hp', hbecomes'⟩ := hmoment n' hn'
      obtain ⟨rfl, rfl⟩ := same_of_orderId P h hseed hp hp' hbecomes hbecomes' hq hq'
        (congrArg (varchar? 64) horder)
      exact ⟨rfl, rfl, rfl, rfl⟩
  have hcollide : Metrics.CollisionsAgree events := by
    intro n hn n' hn' q hq q' hq' hne horder
    obtain ⟨p, hp, hbecomes⟩ := hmoment n hn
    obtain ⟨p', hp', hbecomes'⟩ := hmoment n' hn'
    obtain ⟨-, rfl⟩ := same_of_orderId P h hseed hp hp' hbecomes hbecomes' hq hq' horder
    exact absurd rfl hne
  refine ⟨?_, fun x => ?_, ?_⟩
  · -- the ids are those of the script, each once
    have hnodup : ((moments visits).map fun p => p.2.eventId).Nodup :=
      map_eventId_moments visits ▸ hseed.eventIds
    have hid : ∀ p ∈ moments visits, ∀ n, Becomes L o p n → ∀ row,
        gameEventRow P.toPostgres n = some row → row.eventId = p.2.eventId := by
      intro p hp n hn row hrow
      rw [eventId_of_gameEventRow hrow, eventId_of_becomes P h hseed hp hn]
      obtain ⟨i, hi⟩ := hseed.eventIds_uuid p.2.eventId
        (map_eventId_moments visits ▸ List.mem_map_of_mem hp)
      rw [hi, toLowerCase_uuidAt]
    have hperm : db.eventIds.Perm ((moments visits).map fun p => p.2.eventId) := by
      refine (List.perm_ext_iff_of_nodup db.schema.eventIds_nodup hnodup).mpr fun id => ?_
      simp only [Tables.eventIds, List.mem_map]
      constructor
      · rintro ⟨row, hrow, rfl⟩
        obtain ⟨n, hn, hbound⟩ := hreflects.event row hrow
        obtain ⟨p, hp, hbecomes⟩ := hmoment n hn
        exact ⟨p, hp, (hid p hp n hbecomes row hbound).symm⟩
      · rintro ⟨p, hp, rfl⟩
        obtain ⟨n, hbecomes, -⟩ := exists_becomes (L := L) P h hseed hp
        obtain ⟨row, hrow, hbound⟩ := hreflects.stored n ((hevents n).mpr ⟨p, hp, hbecomes⟩)
        exact ⟨row, hrow, hid p hp n hbecomes row hbound⟩
    have hlength := hperm.length_eq
    rwa [Tables.eventIds, List.length_map, List.length_map] at hlength
  · rw [Metrics.mem_sightings hreflects]
    constructor
    · rintro ⟨n, hn, row, hrow, rfl⟩
      obtain ⟨p, hp, hbecomes⟩ := hmoment n hn
      exact ⟨p, hp, ((becomes_spec P h hseed hp hbecomes).2.sighting hrow).symm⟩
    · rintro ⟨p, hp, rfl⟩
      obtain ⟨n, hbecomes, hdomain, hdescribes⟩ := exists_becomes (L := L) P h hseed hp
      obtain ⟨row, hrow⟩ := Option.isSome_iff_exists.mp hdomain.1
      exact ⟨n, (hevents n).mpr ⟨p, hp, hbecomes⟩, row, hrow, hdescribes.sighting hrow⟩
  · have hnodup : (db.purchases.map fun p => (p.orderId, p.payment)).Nodup := by
      refine List.Nodup.of_map Prod.fst ?_
      rw [List.map_map]
      exact db.schema.orderIds_nodup
    have hperm : (db.purchases.map fun p => (p.orderId, p.payment)).Perm (sales o visits) := by
      refine (List.perm_ext_iff_of_nodup hnodup hseed.sales_nodup.of_map).mpr fun x => ?_
      rw [Metrics.mem_payments hreflects hagree hcollide, mem_sales]
      constructor
      · rintro ⟨n, hn, row, hrow, rfl⟩
        obtain ⟨p, hp, hbecomes⟩ := hmoment n hn
        obtain ⟨hpurchase, hsame⟩ := sale_of_row h hseed hp hbecomes hrow
        exact ⟨p, hp, hpurchase, hsame.symm⟩
      · rintro ⟨p, hp, hpurchase, rfl⟩
        obtain ⟨n, hbecomes, hdomain, hdescribes⟩ := exists_becomes (L := L) P h hseed hp
        have htype : p.2.type = EventType.shopPurchase.name :=
          (p.1.purchase_eq p.2 hpurchase).2.2
        obtain ⟨sale, -, hbound⟩ := hdescribes.purchase htype
        obtain ⟨row, hrow⟩ := Option.isSome_iff_exists.mp (hdomain.2 (by rw [hbound]; rfl))
        exact ⟨n, (hevents n).mpr ⟨p, hp, hbecomes⟩, row, hrow,
          (sale_of_row h hseed hp hbecomes hrow).2⟩
    have hpayments := hperm.map Prod.snd
    rwa [List.map_map] at hpayments

end Shown

/-! ### What the metrics report -/

section Observed

variable (o : GenerateOptions) (visits : List Visit)

/-- The epoch day of a visit. -/
def Visit.date (v : Visit) : ℤ := o.startDay + v.session.day

/-- The users of the visits of a day. -/
def usersOn (p : Visit → Bool) (d : ℤ) : Finset ℤ :=
  ((visits.filter fun v => v.date o = d && p v).map fun v => (v.session.userId : ℤ)).toFinset

/-- What the visits of a day have bought. -/
def takings (d : ℤ) : ℤ :=
  (((visits.filter fun v => v.date o = d).filterMap Visit.purchase).map VisitEvent.amount).sum

/-- What the metrics are computed from, on every day and for every event type. -/
structure Observed (db : Tables) : Prop where
  activeUsers : ∀ d, Metrics.activeUsers db d = usersOn o visits (fun _ => true) d
  /-- Every user is new on the first day. -/
  newUsers : ∀ d, Metrics.newUsers db d =
    if d = o.startDay then usersOn o visits (fun _ => true) d else ∅
  payingUsers : ∀ d, Metrics.payingUsers db d = usersOn o visits (fun v => v.purchase.isSome) d
  engagedUsers : ∀ type d, Metrics.engagedUsers db type d =
    usersOn o visits (fun v => v.events.any fun e => e.type = type) d
  revenueOn : ∀ d, Metrics.revenueOn db (js "KRW") d = takings o visits d

variable {o visits} {M : NearestMath} {db : Tables} {d u : ℤ}

theorem mem_usersOn {p : Visit → Bool} : u ∈ usersOn o visits p d ↔
    ∃ v ∈ visits, v.date o = d ∧ p v = true ∧ (v.session.userId : ℤ) = u := by
  simp only [usersOn, List.mem_toFinset, List.mem_map, List.mem_filter, Bool.and_eq_true,
    decide_eq_true_iff, and_assoc]

/-- An event is on the day of its visit. -/
theorem utcDay_occurredAt (h : o.Loadable) (hseed : OfSeed M o visits) {p : Visit × VisitEvent}
    (hp : p ∈ moments visits) : utcDay (occurredAt o p.1 p.2 : ℤ) = p.1.date o := by
  have hday := (occurredAt_le h (hseed.key_mem hp) (mem_moments.mp hp).2).1
  rw [utcDay, Visit.date, Calendar.DAY_MS]
  omega

theorem Shows.engagedUsers (hshows : Shows o visits db) (h : o.Loadable)
    (hseed : OfSeed M o visits) (type : JsString) (d : ℤ) : Metrics.engagedUsers db type d =
      usersOn o visits (fun v => v.events.any fun e => e.type = type) d := by
  ext u
  simp only [Metrics.mem_engagedUsers, mem_usersOn, List.any_eq_true, decide_eq_true_iff]
  constructor
  · rintro ⟨g, hg, ⟨htype, hday⟩, huser⟩
    obtain ⟨p, hp, hsame⟩ := (hshows.sightings _).mp (List.mem_map_of_mem hg)
    simp only [GameEventRow.sighting, Prod.mk.injEq] at hsame
    obtain ⟨hv, he⟩ := mem_moments.mp hp
    refine ⟨p.1, hv, ?_, ⟨p.2, he, hsame.1.trans htype⟩, hsame.2.1.trans huser⟩
    rw [← utcDay_occurredAt h hseed hp, hsame.2.2, hday]
  · rintro ⟨v, hv, hday, ⟨e, he, htype⟩, huser⟩
    have hp : (v, e) ∈ moments visits := mem_moments.mpr ⟨hv, he⟩
    obtain ⟨g, hg, hsame⟩ := List.mem_map.mp ((hshows.sightings _).mpr ⟨(v, e), hp, rfl⟩)
    simp only [GameEventRow.sighting, Prod.mk.injEq] at hsame
    refine ⟨g, hg, ⟨hsame.1.trans htype, ?_⟩, hsame.2.1.trans huser⟩
    rw [hsame.2.2, utcDay_occurredAt h hseed hp, hday]

theorem Visit.login_mem (v : Visit) : v.login ∈ v.events := by simp [Visit.events]

/-- The logins of a user are those of the user's visits. -/
theorem Shows.mem_loginTimes (hshows : Shows o visits db) {t : ℤ} :
    t ∈ Metrics.loginTimes db u ↔
      ∃ v ∈ visits, (v.session.userId : ℤ) = u ∧ (occurredAt o v v.login : ℤ) = t := by
  constructor
  · rintro ⟨g, hg, ⟨htype, huser⟩, htime⟩
    obtain ⟨p, hp, hsame⟩ := (hshows.sightings _).mp (List.mem_map_of_mem hg)
    simp only [GameEventRow.sighting, Prod.mk.injEq] at hsame
    obtain ⟨hv, he⟩ := mem_moments.mp hp
    have hlogin : p.2 = p.1.login := p.1.eq_login he (hsame.1.trans htype)
    exact ⟨p.1, hv, hsame.2.1.trans huser, by rw [← hlogin, hsame.2.2, htime]⟩
  · rintro ⟨v, hv, huser, rfl⟩
    have hp : (v, v.login) ∈ moments visits := mem_moments.mpr ⟨hv, v.login_mem⟩
    obtain ⟨g, hg, hsame⟩ := List.mem_map.mp ((hshows.sightings _).mpr ⟨(v, v.login), hp, rfl⟩)
    simp only [GameEventRow.sighting, Prod.mk.injEq] at hsame
    exact ⟨g, hg, ⟨hsame.1.trans v.login_eq.2, hsame.2.1.trans huser⟩, hsame.2.2⟩

theorem Shows.activeUsers (hshows : Shows o visits db) (h : o.Loadable)
    (hseed : OfSeed M o visits) (d : ℤ) :
    Metrics.activeUsers db d = usersOn o visits (fun _ => true) d := by
  ext u
  rw [Metrics.mem_activeUsers_iff, Metrics.LoggedIn, ← Metrics.mem_engagedUsers_iff,
    hshows.engagedUsers h hseed, mem_usersOn, mem_usersOn]
  -- every visit begins with a login
  have hlogin : ∀ v : Visit,
      (v.events.any fun e => e.type = EventType.sessionLogin.name) = true := fun v =>
    List.any_eq_true.mpr ⟨v.login, v.login_mem, decide_eq_true v.login_eq.2⟩
  simp only [hlogin]

/-- A user who comes at all comes on the first day. -/
theorem OfSeed.exists_first (hseed : OfSeed M o visits) {v : Visit} (hv : v ∈ visits) :
    ∃ v' ∈ visits, v'.date o = o.startDay ∧ v'.session.userId = v.session.userId := by
  obtain ⟨hday, hlow, hhigh⟩ := mem_userDays.mp (hseed.keys.mem (List.mem_map_of_mem hv))
  have hfirst : (0, v.session.user) ∈ userDays o :=
    mem_userDays.mpr ⟨(Nat.zero_le v.session.day).trans_lt hday, hlow, hhigh⟩
  obtain ⟨v', hv', hkey⟩ := List.mem_map.mp (hseed.first_day _ hfirst rfl)
  obtain ⟨hzero, huser⟩ : v'.session.day = 0 ∧ v'.session.user = v.session.user :=
    Prod.mk.inj hkey
  refine ⟨v', hv', ?_, ?_⟩
  · rw [Visit.date, hzero]
    exact add_zero _
  · rw [Session.userId, Session.userId, huser]

theorem Shows.newUsers (hshows : Shows o visits db) (h : o.Loadable)
    (hseed : OfSeed M o visits) (d : ℤ) : Metrics.newUsers db d =
      if d = o.startDay then usersOn o visits (fun _ => true) d else ∅ := by
  ext u
  rw [Metrics.mem_newUsers_iff]
  have hlater : ∀ t ∈ Metrics.loginTimes db u, (o.startDay : ℤ) ≤ utcDay t := by
    intro t ht
    obtain ⟨v, hv, -, rfl⟩ := hshows.mem_loginTimes.mp ht
    rw [utcDay_occurredAt h hseed (p := (v, v.login)) (mem_moments.mpr ⟨hv, v.login_mem⟩),
      Visit.date]
    omega
  -- the user's first login is on the first day
  have hfirst : ∀ d', Metrics.NewOn db d' u → d' = o.startDay := by
    rintro d' ⟨t, ⟨ht, hleast⟩, rfl⟩
    obtain ⟨v, hv, rfl, -⟩ := hshows.mem_loginTimes.mp ht
    obtain ⟨v', hv', hdate, huser⟩ := hseed.exists_first hv
    have hlogin := hshows.mem_loginTimes.mpr ⟨v', hv', congrArg Int.ofNat huser, rfl⟩
    have hday := utcDay_occurredAt h hseed (p := (v', v'.login))
      (mem_moments.mpr ⟨hv', v'.login_mem⟩)
    refine le_antisymm ?_ (hlater t ht)
    rw [← hdate, ← hday]
    exact Int.ediv_le_ediv (by decide) (hleast hlogin)
  constructor
  · intro hnew
    rw [if_pos (hfirst d hnew), mem_usersOn]
    obtain ⟨t, ⟨ht, -⟩, rfl⟩ := hnew
    obtain ⟨v, hv, huser, rfl⟩ := hshows.mem_loginTimes.mp ht
    exact ⟨v, hv, (utcDay_occurredAt h hseed (p := (v, v.login))
      (mem_moments.mpr ⟨hv, v.login_mem⟩)).symm, rfl, huser⟩
  · intro hu
    split_ifs at hu with hday
    · obtain ⟨v, hv, -, -, huser⟩ := mem_usersOn.mp hu
      obtain ⟨d', hnew, -⟩ := Metrics.existsUnique_newOn
        ⟨_, hshows.mem_loginTimes.mpr ⟨v, hv, huser, rfl⟩⟩
      rwa [hday, ← hfirst d' hnew]
    · exact absurd hu (Finset.notMem_empty u)

theorem Shows.payingUsers (hshows : Shows o visits db) (h : o.Loadable)
    (hseed : OfSeed M o visits) (d : ℤ) : Metrics.payingUsers db d =
      usersOn o visits (fun v => v.purchase.isSome) d := by
  ext u
  simp only [Metrics.mem_payingUsers, mem_usersOn, Option.isSome_iff_exists]
  constructor
  · rintro ⟨r, hr, hday, huser⟩
    obtain ⟨x, hx, hsame⟩ := List.mem_map.mp
      (hshows.payments.mem_iff.mp (List.mem_map_of_mem hr))
    obtain ⟨p, hp, hpurchase, rfl⟩ := mem_sales.mp hx
    simp only [payment, PurchaseRow.payment, Payment.mk.injEq] at hsame
    refine ⟨p.1, (mem_moments.mp hp).1, ?_, ⟨p.2, hpurchase⟩, hsame.1.trans huser⟩
    rw [← utcDay_occurredAt h hseed hp, hsame.2.1, hday]
  · rintro ⟨v, hv, hday, ⟨e, he⟩, huser⟩
    have hp : (v, e) ∈ moments visits := mem_moments.mpr ⟨hv, v.purchase_mem he⟩
    obtain ⟨r, hr, hsame⟩ := List.mem_map.mp (hshows.payments.mem_iff.mpr
      (List.mem_map_of_mem (mem_sales.mpr ⟨(v, e), hp, he, rfl⟩)))
    simp only [payment, PurchaseRow.payment, Payment.mk.injEq] at hsame
    refine ⟨r, hr, ?_, hsame.1.trans huser⟩
    rw [hsame.2.1, utcDay_occurredAt h hseed hp, hday]

theorem Shows.revenueOn (hshows : Shows o visits db) (h : o.Loadable)
    (hseed : OfSeed M o visits) (d : ℤ) :
    Metrics.revenueOn db (js "KRW") d = takings o visits d := by
  set counts : Payment → Bool := fun q => q.currency = js "KRW" && utcDay q.occurredAt = d
  have hpaid : Metrics.revenueOn db (js "KRW") d
      = (((db.purchases.map PurchaseRow.payment).filter counts).map Payment.amountMinor).sum := by
    rw [List.filter_map, List.map_map]
    rfl
  rw [hpaid, ((hshows.payments.filter counts).map Payment.amountMinor).sum_eq, takings]
  -- visit by visit
  have hdate : ∀ v ∈ visits, ∀ e, v.purchase = some e →
      counts (payment o v e) = decide (v.date o = d) := by
    intro v hv e he
    rw [← utcDay_occurredAt h hseed (p := (v, e)) (mem_moments.mpr ⟨hv, v.purchase_mem he⟩)]
    simp [counts, payment]
  clear hshows hseed hpaid
  induction visits with
  | nil => rfl
  | cons v visits ih =>
    have hrest := ih fun v' hv' => hdate v' (List.mem_cons_of_mem _ hv')
    cases he : v.purchase with
    | none =>
      have hsales : sales o (v :: visits) = sales o visits :=
        List.filterMap_cons_none (by rw [he]; rfl)
      rw [hsales, hrest, List.filter_cons]
      split_ifs
      · rw [List.filterMap_cons_none he]
      · rfl
    | some e =>
      have hsales : sales o (v :: visits) = (e.orderText, payment o v e) :: sales o visits :=
        List.filterMap_cons_some (by rw [he]; rfl)
      rw [hsales, List.map_cons, List.filter_cons, List.filter_cons,
        hdate v List.mem_cons_self e he]
      split_ifs
      · rw [List.map_cons, List.sum_cons, hrest, List.filterMap_cons_some he, List.map_cons,
          List.sum_cons]
        rfl
      · exact hrest

theorem Shows.observed (hshows : Shows o visits db) (h : o.Loadable) (hseed : OfSeed M o visits) :
    Observed o visits db :=
  ⟨hshows.activeUsers h hseed, hshows.newUsers h hseed, hshows.payingUsers h hseed,
    hshows.engagedUsers h hseed, hshows.revenueOn h hseed⟩

end Observed

/-! ### Data sets that are loaded -/

/-- The options with other copies, and shuffled or not. -/
def GenerateOptions.vary (o : GenerateOptions) (duplicateRatio : Option ℚ) (shuffle : Bool) :
    GenerateOptions :=
  { o with duplicateRatio := duplicateRatio, shuffle := shuffle }

section Vary

variable {M : NearestMath} {o : GenerateOptions} {visits : List Visit} {L : StandardLibraries}
  {P : StandardPostgres} {duplicateRatio : Option ℚ} {shuffle : Bool}

/-- The visits do not depend on what is copied. -/
theorem play_vary (M : JsMath) : ∀ (days : List (ℕ × ℕ)) (orderSeq : ℕ),
    play M (o.vary duplicateRatio shuffle) days orderSeq = play M o days orderSeq
  | [], _ => rfl
  | (d, u) :: days, orderSeq => by
    have huser : userDay M (o.vary duplicateRatio shuffle) d u orderSeq
        = userDay M o d u orderSeq := rfl
    rw [play, play, huser]
    refine congrArg _ (funext fun first => ?_)
    obtain ⟨events, next⟩ := first
    dsimp only
    rw [play_vary M days next]

theorem OfSeed.vary (hseed : OfSeed M o visits) :
    OfSeed M (o.vary duplicateRatio shuffle) visits where
  events := by
    rw [play_vary]
    exact hseed.events
  keys := hseed.keys
  first_day := hseed.first_day
  eventIds := hseed.eventIds
  eventIds_uuid := hseed.eventIds_uuid
  eventIds_length := hseed.eventIds_length
  orders := hseed.orders

theorem GenerateOptions.Moderate.vary (h : o.Moderate) (hratio : ∀ q ∈ duplicateRatio, q ≤ 1) :
    (o.vary duplicateRatio shuffle).Moderate :=
  ⟨h.draws, hratio⟩

/-- The events of a data set are those of its visits. -/
theorem mem_generateEvents (h : o.Moderate) (hseed : OfSeed M o visits)
    (hratio : ∀ q ∈ duplicateRatio, q ≤ 1) (j : Json) :
    j ∈ (generateEvents M.toJsMath (o.vary duplicateRatio shuffle)
        (scriptSource o.seedNumber) 0).1 ↔ j ∈ visits.flatMap (Visit.toJson o) := by
  have hmoderate : (o.vary duplicateRatio shuffle).Moderate := h.vary hratio
  obtain ⟨copies, hdata⟩ := hseed.vary.isDataset hmoderate
  exact hdata.perm.mem_iff.trans
    (List.mem_append.trans (or_iff_left_of_imp (hdata.copies_mem j)))

/-- Every event of a data set can be sent. -/
theorem exists_list (h : o.Loadable) (hseed : OfSeed M o visits) {data : List Json}
    (hdata : ∀ j ∈ data, j ∈ visits.flatMap (Visit.toJson o)) :
    ∃ es : List Event, es.map Event.value = data := by
  refine (Set.ext_iff.mp (Set.range_list_map Event.value) data).mpr fun j hj => ?_
  obtain ⟨p, hp, rfl⟩ := mem_toJson.mp (hdata j hj)
  exact ⟨⟨_, (p.2.toPlain h (hseed.key_mem hp) (mem_moments.mp hp).2).plain, rfl⟩, rfl⟩

variable (M o L P) in
/-- A run of the loader on the data set has returned a summary. -/
def Loads (J : JsonText) (summary : SendSummary) (db : Database) : Prop :=
  ∃ (es : List Event) (attempts : List (Attempt J L.toLibraries)),
    es.map Event.value = (generateEvents M.toJsMath o (scriptSource o.seedNumber) 0).1 ∧
      ∃ x ∈ outcomes P.toPostgres es .empty attempts, x.result = .ok summary ∧ x.after = db

/-- No event of a data set is rejected. -/
theorem rejections_eq_zero (P : StandardPostgres) (h : o.Loadable) (hseed : OfSeed M o visits)
    {es : List Event}
    (hdata : ∀ j, j ∈ es.map Event.value ↔ j ∈ visits.flatMap (Visit.toJson o)) :
    rejections L.toLibraries es = 0 := by
  refine List.countP_eq_zero.mpr fun e he => ?_
  obtain ⟨p, hp, hvalue⟩ := mem_toJson.mp ((hdata _).mp (List.mem_map_of_mem he))
  obtain ⟨n, hn, -⟩ := exists_becomes (L := L) P h hseed hp
  have hnormal : normalized? L.toLibraries e = some n := by
    rw [normalized?, hvalue]
    exact hn
  simp [hnormal]

/-- A run without failures returns a summary. -/
theorem exists_summary_of_room (P : StandardPostgres) {J : JsonText} (h : o.Loadable)
    (hseed : OfSeed M o visits) {es : List Event}
    (hdata : ∀ j, j ∈ es.map Event.value ↔ j ∈ visits.flatMap (Visit.toJson o))
    (hroom : ∀ e ∈ es, batchBodyByteLength J [e.value] ≤ MAX_BODY_BYTES)
    {attempt : Attempt J L.toLibraries} (hclear : attempt.weather = []) (db : Database) :
    ∃ summary, (attempt.outcome P.toPostgres es db).result = .ok summary := by
  have hmoment : ∀ e ∈ es, ∃ p ∈ moments visits, e.value = p.2.toJson o p.1.session :=
    fun e he => mem_toJson.mp ((hdata _).mp (List.mem_map_of_mem he))
  refine exists_summary attempt hclear (fun batchId sentAt batch hbatch => ?_)
    (fun e he => ⟨hroom e he, ?_⟩) db
  · refine L.isSome_plainToInstance _ (ordinary_batchJson batchId sentAt fun j hj => ?_)
    obtain ⟨e, he, rfl⟩ := List.mem_map.mp hj
    obtain ⟨p, hp, hvalue⟩ := hmoment e (hbatch he)
    rw [hvalue]
    exact (p.2.toPlain h (hseed.key_mem hp) (mem_moments.mp hp).2).ordinary
  · obtain ⟨p, hp, hvalue⟩ := hmoment e he
    obtain ⟨n, hn, hdomain, -⟩ := exists_becomes (L := L) P h hseed hp
    refine ⟨n, ?_, hdomain⟩
    rw [normalized?, hvalue]
    exact hn

theorem Loads.shows {J : JsonText} {summary : SendSummary} {db : Database} (h : o.Loadable)
    (hseed : OfSeed M o visits) (hratio : ∀ q ∈ duplicateRatio, q ≤ 1)
    (hloads : Loads M (o.vary duplicateRatio shuffle) L P J summary db) :
    Shows o visits db.toTables ∧ summary.rejected = 0 := by
  obtain ⟨es, attempts, hes, x, hx, hresult, rfl⟩ := hloads
  have hdata : ∀ j, j ∈ es.map Event.value ↔ j ∈ visits.flatMap (Visit.toJson o) := by
    rw [hes]
    exact mem_generateEvents h.toModerate hseed hratio
  have hloading : Pipeline.Loading J L.toLibraries P.toPostgres es Database.empty.toTables
      (outcomes P.toPostgres es .empty attempts)
      (Pipeline.loadAll P.toPostgres es .empty attempts) :=
    loading_of_take ⟨0, rfl⟩ attempts
  obtain ⟨hloaded, htables⟩ := hloading.loaded x hx summary hresult
  have hreflects := reflects_load (L := L) P h hseed hdata
  rw [← htables] at hreflects
  exact ⟨shows_of_reflects h hseed (fun n => mem_accepted hdata) hreflects,
    hloaded.added.rejected.trans (rejections_eq_zero P h hseed hdata)⟩

theorem Shows.sameEvidence {db db' : Tables} (h : Shows o visits db) (h' : Shows o visits db') :
    Metrics.SameEvidence db db' :=
  ⟨fun x => (h.sightings x).trans (h'.sightings x).symm, h.payments.trans h'.payments.symm⟩

end Vary

/-- **A loaded data set.** A seed makes visits such that any data set of them, with copies or
shuffled, can be sent: a run without failures returns a summary, as long as each event has room
in a request. When a run returns a summary, after whatever failed runs, nothing was rejected, the
tables have each event once, and the metrics are computed from the visits; they are the same for
all these data sets. -/
theorem loaded_data_set (M : NearestMath) (o : GenerateOptions) (L : StandardLibraries)
    (P : StandardPostgres) (J : JsonText) (h : o.Loadable) : ∃ visits : List Visit,
    ((visits.map Visit.key).Sublist (userDays o) ∧
      ∀ p ∈ userDays o, p.1 = 0 → p ∈ visits.map Visit.key) ∧
    ∀ duplicateRatio shuffle, (∀ q ∈ duplicateRatio, q ≤ 1) →
      (∃ (es : List Event) (copies : List Json),
        es.map Event.value = (generateEvents M.toJsMath (o.vary duplicateRatio shuffle)
          (scriptSource o.seedNumber) 0).1 ∧
        IsDataset M (o.vary duplicateRatio shuffle) visits copies (es.map Event.value) ∧
        ((∀ e ∈ es, batchBodyByteLength J [e.value] ≤ MAX_BODY_BYTES) →
          ∀ attempt : Attempt J L.toLibraries, attempt.weather = [] → ∀ db, ∃ summary,
            (attempt.outcome P.toPostgres es db).result = .ok summary)) ∧
      ∀ summary db, Loads M (o.vary duplicateRatio shuffle) L P J summary db →
        summary.rejected = 0 ∧ db.gameEvents.length = (visits.flatMap Visit.events).length ∧
        Observed o visits db.toTables ∧
        ∀ duplicateRatio' shuffle' summary' db', (∀ q ∈ duplicateRatio', q ≤ 1) →
          Loads M (o.vary duplicateRatio' shuffle') L P J summary' db' →
          ∀ fl collation, Metrics.SameMetrics fl collation db.toTables db'.toTables := by
  obtain ⟨visits, hseed⟩ := exists_visits M h.toModerate
  refine ⟨visits, ⟨hseed.keys, hseed.first_day⟩, fun duplicateRatio shuffle hratio => ⟨?_, ?_⟩⟩
  · obtain ⟨es, hes⟩ : ∃ es : List Event, es.map Event.value
        = (generateEvents M.toJsMath (o.vary duplicateRatio shuffle)
            (scriptSource o.seedNumber) 0).1 :=
      exists_list h hseed fun j => (mem_generateEvents h.toModerate hseed hratio j).mp
    have hmoderate : (o.vary duplicateRatio shuffle).Moderate := h.toModerate.vary hratio
    obtain ⟨copies, hdataset⟩ := hseed.vary.isDataset hmoderate
    have hdata : ∀ j, j ∈ es.map Event.value ↔ j ∈ visits.flatMap (Visit.toJson o) := by
      rw [hes]
      exact mem_generateEvents h.toModerate hseed hratio
    exact ⟨es, copies, hes, hes ▸ hdataset,
      fun hroom _ hclear => exists_summary_of_room P h hseed hdata hroom hclear⟩
  · intro summary db hloads
    obtain ⟨hshows, hrejected⟩ := hloads.shows h hseed hratio
    refine ⟨hrejected, ?_, hshows.observed h hseed, ?_⟩
    · rw [hshows.rows, moments, List.length_flatMap, List.length_flatMap]
      simp only [List.length_map]
    · intro duplicateRatio' shuffle' summary' db' hratio' hloads' fl collation
      obtain ⟨hshows', -⟩ := hloads'.shows h hseed hratio'
      exact Metrics.sameMetrics_of_sameEvidence fl collation (hshows.sameEvidence hshows')

/-! ### June is loaded -/

theorem loadable_june : juneOptions.Loadable :=
  ⟨moderate_june, by decide +kernel, by decide +kernel⟩

/-- A run without failures. -/
def clearAttempt (J : JsonText) (L : StandardLibraries) : Attempt J L.toLibraries where
  labels _ := templateLabel J L
  weather := []

/-- The events of a data set have room in requests. -/
theorem room_of_visits {o : GenerateOptions} (h : o.Loadable) {visits : List Visit}
    (hkeys : (visits.map Visit.key).Sublist (userDays o)) {event : Json}
    (hevent : event ∈ visits.flatMap (Visit.toJson o)) :
    batchBodyByteLength compactJson [event] ≤ MAX_BODY_BYTES := by
  obtain ⟨p, hp, rfl⟩ := mem_toJson.mp hevent
  obtain ⟨hv, he⟩ := mem_moments.mp hp
  exact (p.2.toPlain h (hkeys.subset (List.mem_map_of_mem hv)) he).room

/-- June with one more event for every ten, in any order, is loaded. -/
theorem loaded_data_set_june : ∃ visits,
    (∃ copies events, IsDataset nearestMath (juneOptions.vary (some (1 / 10)) true) visits copies
      events) ∧
    (∃ summary db, Loads nearestMath (juneOptions.vary (some (1 / 10)) true) standardLibraries
      standardPostgres compactJson summary db) ∧
    ∀ summary db, Loads nearestMath (juneOptions.vary (some (1 / 10)) true) standardLibraries
        standardPostgres compactJson summary db →
      Observed juneOptions visits db.toTables := by
  obtain ⟨visits, ⟨hkeys, -⟩, h⟩ := loaded_data_set nearestMath juneOptions standardLibraries
    standardPostgres compactJson loadable_june
  have hratio : ∀ q ∈ some (1 / 10 : ℚ), q ≤ 1 := by
    rintro q hq
    rw [← Option.mem_some_iff.mp hq]
    norm_num
  obtain ⟨⟨es, copies, hes, hdata, hsummary⟩, hloaded⟩ := h _ true hratio
  have hroom : ∀ e ∈ es, batchBodyByteLength compactJson [e.value] ≤ MAX_BODY_BYTES := by
    intro e he
    refine room_of_visits loadable_june hkeys ?_
    rcases List.mem_append.mp (hdata.perm.mem_iff.mp (List.mem_map_of_mem he)) with hmem | hmem
    · exact hmem
    · exact hdata.copies_mem _ hmem
  obtain ⟨summary, hresult⟩ :=
    hsummary hroom (clearAttempt compactJson standardLibraries) rfl .empty
  exact ⟨visits, ⟨copies, _, hdata⟩,
    ⟨summary, _, es, [clearAttempt compactJson standardLibraries], hes, _, List.mem_cons_self,
      hresult, rfl⟩,
    fun summary db hloads => (hloaded summary db hloads).2.2.1⟩

end Dataset
