/-
The visits of a data set.

A user who comes on a day logs in, does something, perhaps buys something, and logs out four hours
later on the same day.  A visit is what the generator makes of one user's day.

* `floorProduct_lt`, `activityCount_le` — the bounds of the random numbers;
* `Visit` — a login, activities, perhaps a purchase, and a logout;
* `draws_playSession`, `draws_userDay` — a user's day makes a visit or nothing, and the visit's
  UUIDs are those of different draws;
* `draws_play` — the visits of all days.
-/
import LogStack.ScriptUuids

open Ingestion (EventType)
open Sampling
open Sender (ACTIVITIES ActivitySpec Content Flat Gen JsMath NearestMath Source Text
  activities_plain always_floorRandom always_loginPayload atLeast either floorRandom isUuidV4
  loginPayload mapId monsterKill numbered object pickActivity pickFrom pickFrom_mem round_mul_lt)

namespace Dataset

/-! ### The number of draws -/

section Draws

variable {M : JsMath}

theorem atMost_floorRandom {n : ℚ} : AtMost 1 (floorRandom M n) :=
  atMost_bind atMost_draw fun _ => atMost_pure

theorem atMost_numbered {text : JsString} {n : ℕ} : AtMost 1 (numbered M text n) :=
  atMost_bind atMost_floorRandom fun _ => atMost_pure

theorem atMost_atLeast {least n : ℕ} : AtMost 1 (atLeast M least n) :=
  atMost_bind atMost_floorRandom fun _ => atMost_pure

theorem atMost_either {p : ℚ} {text other : JsString} : AtMost 1 (either M p text other) :=
  atMost_bind atMost_draw fun _ => atMost_pure

theorem atMost_value {j : Json} : AtMost 1 (pure j : Gen Json) := atMost_pure.mono (Nat.zero_le 1)

theorem atMost_cons {m n : ℕ} {key : JsString} {value : Gen Json}
    {fields : List (JsString × Gen Json)} (hvalue : AtMost m value)
    (hfields : AtMost n (object fields)) : AtMost (m + n) (object ((key, value) :: fields)) :=
  atMost_bind hvalue fun _ => atMost_bind (n := 0) hfields fun _ => atMost_pure

/-- Each property of an object needs a draw at most. -/
theorem atMost_object {fields : List (JsString × Gen Json)} (h : ∀ f ∈ fields, AtMost 1 f.2) :
    AtMost fields.length (object fields) := by
  induction fields with
  | nil => exact atMost_pure
  | cons f fields ih =>
    obtain ⟨hf, hfields⟩ := List.forall_mem_cons.mp h
    rw [List.length_cons, Nat.add_comm]
    exact atMost_cons hf (ih hfields)

theorem activities_short : ∀ activity ∈ ACTIVITIES M, AtMost 3 activity.payload := by
  simp only [ACTIVITIES, List.forall_mem_cons]
  have hmap : AtMost 1 (mapId M) := atMost_numbered
  have hkill : AtMost 3 (monsterKill M).payload := by
    refine (atMost_object ?_).mono (Nat.le_succ 2)
    simp only [List.forall_mem_cons]
    exact ⟨atMost_numbered, hmap, by simp⟩
  refine ⟨hkill, ?_, ?_, ?_, ?_, ?_, ?_, ?_, by simp⟩
  · refine atMost_object ?_
    simp only [List.forall_mem_cons]
    exact ⟨atMost_atLeast, atMost_either, hmap, by simp⟩
  · refine atMost_object ?_
    simp only [List.forall_mem_cons]
    exact ⟨atMost_numbered, atMost_atLeast, atMost_value, by simp⟩
  · refine (atMost_object ?_).mono (Nat.le_succ 2)
    simp only [List.forall_mem_cons]
    exact ⟨hmap, hmap, by simp⟩
  · refine (atMost_object ?_).mono (Nat.le_succ 2)
    simp only [List.forall_mem_cons]
    exact ⟨atMost_numbered, atMost_atLeast, by simp⟩
  · refine atMost_object ?_
    simp only [List.forall_mem_cons]
    exact ⟨atMost_numbered, atMost_either, atMost_atLeast, by simp⟩
  · refine atMost_bind (m := 1) (n := 2) atMost_floorRandom fun _ => atMost_object ?_
    simp only [List.forall_mem_cons]
    exact ⟨atMost_value, atMost_value, by simp⟩
  · refine (atMost_object ?_).mono (Nat.le_succ 2)
    simp only [List.forall_mem_cons]
    exact ⟨hmap, atMost_either, by simp⟩

theorem pickActivity_mem : Always (· ∈ ACTIVITIES M) (pickActivity M) := by
  refine always_bind always_true fun r _ => always_pure ?_
  cases hpick : pickFrom M (ACTIVITIES M) (M.round
      (r * (((ACTIVITIES M).map ActivitySpec.weight).sum : ℕ))) with
  | none => exact List.mem_cons_self
  | some activity => exact pickFrom_mem hpick

end Draws

/-! ### Bounds of random numbers -/

section Bounds

variable (M : NearestMath) (seed : ℤ) {i : ℕ}

/-- Products with short numbers are not rounded. -/
theorem foldl_round {factors : List ℕ} (hpos : ∀ n ∈ factors, 0 < n)
    (hprod : factors.prod ≤ 2 ^ 21) :
    factors.foldl (fun (q : ℚ) (n : ℕ) => M.round (q * n)) (createRng seed i)
      = createRng seed i * factors.prod := by
  induction factors using List.reverseRecOn with
  | nil => simp
  | append_singleton factors n ih =>
    have hn : 0 < n := hpos n (by simp)
    rw [List.prod_append, List.prod_singleton] at hprod
    have hfront := ih (fun m hm => hpos m (List.mem_append_left _ hm))
      ((Nat.le_mul_of_pos_right _ hn).trans hprod)
    rw [List.foldl_append, List.foldl_cons, List.foldl_nil, hfront, List.prod_append,
      List.prod_singleton, mul_assoc, ← Nat.cast_mul, round_createRng_mul M seed i hprod]

theorem floorProduct_lt (front : List ℕ) {last : ℕ} (hpos : ∀ n ∈ front, 0 < n)
    (hlast : 0 < last) (hprod : front.prod ≤ 2 ^ 21) (hall : front.prod * last ≤ 2 ^ 53) :
    (floorProduct M.toJsMath (front ++ [last]) (scriptSource seed) i).1 < front.prod * last := by
  have hN : 0 < front.prod * last := Nat.mul_pos (List.prod_pos hpos) hlast
  show ⌊(front ++ [last]).foldl (fun (q : ℚ) (n : ℕ) => M.round (q * n)) (createRng seed i)⌋₊ < _
  rw [List.foldl_append, List.foldl_cons, List.foldl_nil, foldl_round M seed hpos hprod, mul_assoc,
    ← Nat.cast_mul]
  exact (Nat.floor_lt' hN.ne').mpr
    (round_mul_lt M (createRng_double seed i) (createRng_unit seed i) hN hall)

theorem floorRandom_lt {n : ℕ} (hpos : 0 < n) (hn : n ≤ 2 ^ 53) :
    (floorRandom M.toJsMath n (scriptSource seed) i).1 < n :=
  (Nat.floor_lt' hpos.ne').mpr
    (round_mul_lt M (createRng_double seed i) (createRng_unit seed i) hpos hn)

end Bounds

/-- One and a half times the mean. -/
def mostActivities (o : GenerateOptions) : ℕ := max 1 ⌈3 / 2 * o.perUserPerDay⌉₊

theorem activityCount_le (M : NearestMath) {o : GenerateOptions} (h : mostActivities o ≤ 2 ^ 53)
    (seed : ℤ) {i : ℕ} :
    1 ≤ (activityCount M.toJsMath o (scriptSource seed) i).1 ∧
      (activityCount M.toJsMath o (scriptSource seed) i).1 ≤ mostActivities o := by
  have hunit := createRng_unit seed i
  have hhalves : M.round (3 / 2) = 3 / 2 :=
    M.round_double ⟨3, -1, by decide, by decide, by decide, by norm_num⟩ (by norm_num)
  have hzero : M.round 0 = 0 := by exact_mod_cast M.round_nat (n := 0) (by decide)
  have hlow : 0 ≤ M.round (1 / 2 + createRng seed i) := by
    rw [← hzero]
    exact M.round_mono (by linarith)
  have hhigh : M.round (1 / 2 + createRng seed i) ≤ 3 / 2 := by
    rw [← hhalves]
    exact M.round_mono (by linarith)
  have hmost : o.perUserPerDay * M.round (1 / 2 + createRng seed i) ≤ (mostActivities o : ℕ) := by
    have hceil : 3 / 2 * o.perUserPerDay ≤ (mostActivities o : ℕ) :=
      (Nat.le_ceil _).trans (by exact_mod_cast le_max_right _ _)
    rcases le_total 0 o.perUserPerDay with hq | hq
    · calc o.perUserPerDay * M.round (1 / 2 + createRng seed i) ≤ o.perUserPerDay * (3 / 2) :=
            mul_le_mul_of_nonneg_left hhigh hq
        _ ≤ _ := by rwa [mul_comm]
    · exact (mul_nonpos_of_nonpos_of_nonneg hq hlow).trans (Nat.cast_nonneg _)
  have hround := M.round_mono hmost
  rw [M.round_nat h] at hround
  show 1 ≤ (max 1 ⌊M.round (o.perUserPerDay * M.round (1 / 2 + createRng seed i)) + 1 / 2⌋).toNat ∧
    (max 1 ⌊M.round (o.perUserPerDay * M.round (1 / 2 + createRng seed i)) + 1 / 2⌋).toNat ≤
      mostActivities o
  have hfloor : ⌊M.round (o.perUserPerDay * M.round (1 / 2 + createRng seed i)) + 1 / 2⌋
      ≤ (mostActivities o : ℤ) := by
    refine Int.lt_add_one_iff.mp (Int.floor_lt.mpr ?_)
    push_cast
    linarith
  have hone : 1 ≤ mostActivities o := le_max_left _ _
  omega

/-! ### Visits -/

/-- An event without what it shares with the others of its visit. -/
structure VisitEvent where
  eventId : JsString
  ms : ℕ
  type : JsString
  payload : List (JsString × Json)
  eventId_v4 : isUuidV4 eventId = true
  content : Content type payload

def VisitEvent.toJson (o : GenerateOptions) (session : Session) (e : VisitEvent) : Json :=
  eventJson o session e.eventId e.ms e.type e.payload

def orderId (o : GenerateOptions) (k : ℕ) : JsString :=
  js "ORDER-GEN-" ++ Metrics.decimalText o.seedNumber ++ js "-" ++ decimal k

/-- What a user does in one session. -/
structure Visit where
  session : Session
  loginMs : ℕ
  login : VisitEvent
  activities : List VisitEvent
  purchase : Option VisitEvent
  logout : VisitEvent
  sessionId_eq : ∃ k < 1000000, session.sessionId = js "session-u" ++ decimal session.userId ++
    js "-d" ++ decimal session.day ++ js "-" ++ decimal k
  loginMs_lt : loginMs < 20 * 3600000
  login_eq : login.ms = loginMs ∧ login.type = js "session_login"
  activities_ne : activities ≠ []
  activities_eq : ∀ e ∈ activities, loginMs ≤ e.ms ∧ e.ms < loginMs + 3 * 3600000 ∧
    e.type ∉ [js "session_login", js "session_logout", js "shop_purchase"]
  purchase_eq : ∀ e ∈ purchase, loginMs ≤ e.ms ∧ e.ms < loginMs + 3600000 ∧
    e.type = js "shop_purchase"
  logout_eq : logout.ms = loginMs + 4 * 3600000 ∧ logout.type = js "session_logout"

namespace Visit

variable (v : Visit)

def key : ℕ × ℕ := (v.session.day, v.session.user)

def events : List VisitEvent := v.login :: v.activities ++ v.purchase.toList ++ [v.logout]

def order? : Option Json := v.purchase.bind fun e => (Json.obj e.payload).get? (js "order_id")

/-- **A visit ends on its day.** -/
theorem ms_lt : ∀ e ∈ v.events, v.loginMs ≤ e.ms ∧ e.ms ≤ v.loginMs + 4 * 3600000 ∧
    e.ms < 86400000 := by
  intro e he
  have hstart := v.loginMs_lt
  simp only [events, List.mem_append, List.mem_cons, List.not_mem_nil, or_false,
    Option.mem_toList] at he
  rcases he with ((rfl | he) | he) | rfl
  · have hlogin := v.login_eq.1
    omega
  · have hactivity := v.activities_eq e he
    omega
  · have hpurchase := v.purchase_eq e he
    omega
  · have hlogout := v.logout_eq.1
    omega

end Visit

/-! ### A visit is generated -/

section Generate

variable (M : NearestMath) (o : GenerateOptions) {session : Session} {loginMs orderSeq : ℕ}

/-- What a generator of an event gives. -/
def MakesEvent (m : ℕ) (session : Session) (q : VisitEvent → Prop) (g : Gen Json) : Prop :=
  Draws (scriptSource o.seedNumber) (uuidAt o.seedNumber) m
    (fun j ids => ∃ e : VisitEvent, j = e.toJson o session ∧ ids = [e.eventId] ∧ q e) g

theorem draws_rngUuid (seed : ℤ) : Draws (scriptSource seed) (uuidAt seed) 32
    (fun id ids => ids = [id] ∧ isUuidV4 id = true) (rngUuid M.toJsMath) := by
  intro i
  rw [rngUuid_eq]
  refine ⟨[uuidAt seed i], ⟨rfl, uuidAt_v4 seed i⟩, Nat.le_add_right i 32, le_rfl, ?_⟩
  rw [Nat.add_sub_cancel_left]
  exact List.singleton_sublist.mpr (List.mem_map_of_mem (List.mem_range'_1.mpr ⟨le_rfl, by omega⟩))

theorem makesEvent_makeEvent {m ms : ℕ} {type : JsString} {payload : Gen (List (JsString × Json))}
    {q : List (JsString × Json) → Prop} (hm : AtMost m payload)
    (hpayload : Always (fun fields => Content type fields ∧ q fields) payload) :
    MakesEvent o (32 + m) session (fun e => e.ms = ms ∧ e.type = type ∧ q e.payload)
      (makeEvent M.toJsMath o session ms type payload) := by
  refine draws_bind (draws_rngUuid M o.seedNumber) ?_
  rintro id _ ⟨rfl, hid⟩
  refine draws_bind (n := 0) (hpayload.draws hm) ?_
  rintro fields _ ⟨rfl, hcontent, hq⟩
  exact draws_pure ⟨⟨id, ms, type, fields, hid, hcontent⟩, rfl, rfl, rfl, rfl, hq⟩

theorem always_content (type : EventType) (h : type ≠ .shopPurchase)
    {payload : Gen (List (JsString × Json))} (hflat : Always Flat payload) :
    Always (fun fields => Content type.name fields ∧ True) payload :=
  hflat.mono fun _ hfields => ⟨.plain h hfields, trivial⟩

theorem makesEvent_login : MakesEvent o 33 session
    (fun e => e.ms = loginMs ∧ e.type = js "session_login")
    (makeEvent M.toJsMath o session loginMs (js "session_login") (loginPayload M.toJsMath)) := by
  have hone : AtMost 1 (loginPayload M.toJsMath) := atMost_cons (m := 1) (n := 0) atMost_either
    (atMost_cons (m := 0) (n := 0) atMost_pure atMost_pure)
  refine (makesEvent_makeEvent M o hone (q := fun _ => True)
    (always_content .sessionLogin (by decide) always_loginPayload)).mono ?_ le_rfl
  rintro j ids ⟨e, hj, hids, hms, htype, -⟩
  exact ⟨e, hj, hids, hms, htype⟩

theorem makesEvent_logout : MakesEvent o 32 session
    (fun e => e.ms = loginMs + 4 * 3600000 ∧ e.type = js "session_logout")
    (makeLogout M.toJsMath o session loginMs) := by
  have hzero : AtMost 0 logoutPayload := atMost_cons (m := 0) (n := 0) atMost_pure
    (atMost_cons (m := 0) (n := 0) atMost_pure atMost_pure)
  have hflat : Always Flat logoutPayload := by
    refine Sender.flat_object (by simp only [List.map]; decide +kernel) ?_
    simp only [List.forall_mem_cons]
    exact ⟨always_pure (.nat (by decide)), always_pure (.str (by decide +kernel) (by decide)),
      by simp⟩
  refine (makesEvent_makeEvent M o hzero (q := fun _ => True)
    (always_content .sessionLogout (by decide) hflat)).mono ?_ le_rfl
  rintro j ids ⟨e, hj, hids, hms, htype, -⟩
  exact ⟨e, hj, hids, hms, htype⟩

theorem activities_type {M : JsMath} : ∀ activity ∈ ACTIVITIES M,
    activity.type ∉ [js "session_login", js "session_logout", js "shop_purchase"] := by
  simp only [ACTIVITIES, List.forall_mem_cons, monsterKill]
  refine ⟨?_, ?_, ?_, ?_, ?_, ?_, ?_, ?_, by simp⟩
  all_goals decide +kernel

theorem makesEvent_activity : MakesEvent o 37 session
    (fun e => loginMs ≤ e.ms ∧ e.ms < loginMs + 3 * 3600000 ∧
      e.type ∉ [js "session_login", js "session_logout", js "shop_purchase"])
    (makeActivity M.toJsMath o session loginMs) := by
  have hoffset : Draws (scriptSource o.seedNumber) (uuidAt o.seedNumber) 1
      (fun k ids => ids = [] ∧ k < 3 * 3600000) (floorProduct M.toJsMath [3, 3600, 1000]) :=
    fun i => ⟨[], ⟨rfl, floorProduct_lt M o.seedNumber [3, 3600] (by decide) (by decide)
      (by decide) (by decide)⟩, Nat.le_succ i, le_rfl, List.nil_sublist _⟩
  have hpick : AtMost 1 (pickActivity M.toJsMath) :=
    atMost_bind (n := 0) atMost_draw fun _ => atMost_pure
  refine draws_bind (m := 1) (n := 36) hoffset ?_
  rintro k _ ⟨rfl, hk⟩
  refine draws_bind (m := 1) (n := 35) (pickActivity_mem.draws hpick) ?_
  rintro activity _ ⟨rfl, hmem⟩
  obtain ⟨type, hother, htype⟩ := (activities_plain activity hmem).type
  have hcontent := always_content type hother (activities_plain activity hmem).payload
  rw [← htype] at hcontent
  refine (makesEvent_makeEvent M o (activities_short activity hmem) (q := fun _ => True)
    hcontent).mono ?_ le_rfl
  rintro j ids ⟨e, hj, hids, hms, htype, -⟩
  exact ⟨e, hj, hids, by omega, by omega, htype ▸ activities_type activity hmem⟩

/-- The digits of a seed and of a number below `2 ^ 32`. -/
theorem orderId_text {k : ℕ} (h : k ≤ 2 ^ 32) :
    Text (orderId o k) ∧ 1 ≤ (orderId o k).length ∧ (orderId o k).length ≤ 64 := by
  have hseed : Text (Metrics.decimalText o.seedNumber) ∧
      (Metrics.decimalText o.seedNumber).length ≤ 17 := by
    have hnat : o.seedNumber.natAbs < 10 ^ 16 := by
      have hsafe : |o.seedNumber| ≤ 2 ^ 53 := by
        rw [GenerateOptions.seedNumber]
        cases o.seed with
        | none => decide
        | some seed => exact seed.property
      rw [Int.abs_eq_natAbs] at hsafe
      omega
    have hlength := Sender.length_decimal_le (by decide) hnat
    rw [Metrics.decimalText]
    split_ifs
    · have hminus : (js "-").length = 1 := rfl
      refine ⟨(by decide +kernel : Text (js "-")).append (Sender.text_decimal _), ?_⟩
      rw [List.length_append, hminus]
      omega
    · exact ⟨Sender.text_decimal _, by omega⟩
  have hdigits := Sender.length_decimal_le (n := k) (k := 10) (by decide) (by omega)
  have hstart : (js "ORDER-GEN-").length = 10 ∧ (js "-").length = 1 := ⟨rfl, rfl⟩
  rw [orderId]
  refine ⟨?_, ?_, ?_⟩
  · exact (((by decide +kernel : Text (js "ORDER-GEN-")).append hseed.1).append
      (by decide +kernel)).append (Sender.text_decimal _)
  · simp only [List.length_append, hstart]
    omega
  · simp only [List.length_append, hstart]
    omega

theorem always_purchasePayload {quantity : ℕ} (hseq : orderSeq ≤ 2 ^ 32)
    (hquantity : quantity < 3) :
    Always (fun fields => Content (js "shop_purchase") fields ∧
        (Json.obj fields).get? (js "order_id") = some (.str (orderId o orderSeq)))
      (purchasePayload M.toJsMath o orderSeq (1 + quantity)) := by
  have hproduct : Always (Sender.Label 64) (numbered M.toJsMath (js "cash-item-") 10) :=
    Sender.label_numbered (k := 2) (by decide +kernel) (by decide) (by decide) (by decide)
      (by decide)
  have hname : Always (Sender.Label 128) (numbered M.toJsMath (js "캐시 아이템 ") 10) :=
    Sender.label_numbered (k := 2) (by decide +kernel) (by decide) (by decide) (by decide)
      (by decide)
  have hamount : Always (fun j => ∃ n ≤ 22000, j = .nat n) (do
      let price ← floorRandom M.toJsMath 50
      pure (.nat ((1 + quantity) * (500 + price * 100))) : Gen Json) := by
    refine always_bind (always_floorRandom (n := 50) (by decide)) fun price hprice =>
      always_pure ⟨_, ?_, rfl⟩
    calc (1 + quantity) * (500 + price * 100) ≤ 4 * 5500 := Nat.mul_le_mul (by omega) (by omega)
      _ = 22000 := rfl
  refine (Sender.always_object_cons (p := fun j => j = .str (orderId o orderSeq))
    (always_pure rfl) (Sender.always_object_cons hproduct (Sender.always_object_cons hname
      (Sender.always_object_cons (p := fun j => j = .nat (1 + quantity)) (always_pure rfl)
        (Sender.always_object_cons hamount
          (Sender.always_object_cons (p := fun j => j = .str (js "KRW")) (always_pure rfl)
            (always_pure (p := fun rest => rest = []) rfl))))))).mono ?_
  rintro _ ⟨_, _, rfl, rfl, _, _, rfl, ⟨productId, rfl, hproduct⟩, _, _, rfl,
    ⟨productName, rfl, hname⟩, _, _, rfl, rfl, _, _, rfl, ⟨amountMinor, hamount, rfl⟩, _, _, rfl,
    rfl, rfl⟩
  exact ⟨.sale ⟨orderId o orderSeq, productId, productName, 1 + quantity, amountMinor,
    orderId_text o hseq, hproduct, hname, by omega, hamount⟩, rfl⟩

/-- What the purchase of a visit is. -/
def IsPurchase (loginMs orderSeq : ℕ) (e : VisitEvent) : Prop :=
  (loginMs ≤ e.ms ∧ e.ms < loginMs + 3600000 ∧ e.type = js "shop_purchase") ∧
    (Json.obj e.payload).get? (js "order_id") = some (.str (orderId o orderSeq))

theorem makesEvent_purchase (hseq : orderSeq ≤ 2 ^ 32) :
    MakesEvent o 37 session (IsPurchase o loginMs orderSeq)
      (makePurchase M.toJsMath o session loginMs orderSeq) := by
  have hquantity : Draws (scriptSource o.seedNumber) (uuidAt o.seedNumber) 1
      (fun k ids => ids = [] ∧ k < 3) (floorRandom M.toJsMath 3) :=
    fun i => ⟨[], ⟨rfl, floorRandom_lt M o.seedNumber (n := 3) (by decide) (by decide)⟩,
      Nat.le_succ i, le_rfl, List.nil_sublist _⟩
  have hoffset : Draws (scriptSource o.seedNumber) (uuidAt o.seedNumber) 1
      (fun k ids => ids = [] ∧ k < 3600000) (floorProduct M.toJsMath [3600, 1000]) :=
    fun i => ⟨[], ⟨rfl, floorProduct_lt M o.seedNumber [3600] (by decide) (by decide)
      (by decide) (by decide)⟩, Nat.le_succ i, le_rfl, List.nil_sublist _⟩
  refine draws_bind (m := 1) (n := 36) hquantity ?_
  rintro quantity _ ⟨rfl, hk⟩
  refine draws_bind (m := 1) (n := 35) hoffset ?_
  rintro offset _ ⟨rfl, hoffset⟩
  have hthree : AtMost 3 (purchasePayload M.toJsMath o orderSeq (1 + quantity)) :=
    atMost_cons (m := 0) (n := 3) atMost_pure (atMost_cons (m := 1) (n := 2) atMost_numbered
      (atMost_cons (m := 1) (n := 1) atMost_numbered (atMost_cons (m := 0) (n := 1) atMost_pure
        (atMost_cons (m := 1) (n := 0) (atMost_bind atMost_floorRandom fun _ => atMost_pure)
          (atMost_cons (m := 0) (n := 0) atMost_pure atMost_pure)))))
  refine (makesEvent_makeEvent M o hthree (always_purchasePayload M o hseq hk)).mono ?_ le_rfl
  rintro j ids ⟨e, hj, hids, hms, htype, horder⟩
  exact ⟨e, hj, hids, ⟨by omega, by omega, htype⟩, horder⟩

/-! ### The visits of all days -/

def Visit.toJson (v : Visit) : List Json := v.events.map (VisitEvent.toJson o v.session)

def Visit.eventIds (v : Visit) : List JsString := v.events.map VisitEvent.eventId

/-- The visits make the events and use the UUIDs, and their purchases have the next orders. -/
structure Plays (orderSeq : ℕ) (visits : List Visit) (result : List Json × ℕ)
    (ids : List JsString) : Prop where
  events : result.1 = visits.flatMap (Visit.toJson o)
  ids : ids = visits.flatMap Visit.eventIds
  orders : ∃ k ≤ visits.length, result.2 = orderSeq + k ∧ visits.filterMap Visit.order? =
    (List.range' (orderSeq + 1) k).map fun n => .str (orderId o n)

variable {o} in
theorem Plays.append {orderSeq : ℕ} {visits more : List Visit} {result result' : List Json × ℕ}
    {ids ids' : List JsString} (h : Plays o orderSeq visits result ids)
    (h' : Plays o result.2 more result' ids') :
    Plays o orderSeq (visits ++ more) (result.1 ++ result'.1, result'.2) (ids ++ ids') := by
  obtain ⟨k, hk, hseq, horders⟩ := h.orders
  obtain ⟨k', hk', hseq', horders'⟩ := h'.orders
  refine ⟨?_, ?_, k + k', ?_, ?_, ?_⟩
  · rw [List.flatMap_append, h.events, h'.events]
  · rw [List.flatMap_append, h.ids, h'.ids]
  · rw [List.length_append]
    omega
  · show result'.2 = orderSeq + (k + k')
    omega
  · have hnext : orderSeq + k + 1 = orderSeq + 1 + k := by omega
    rw [List.filterMap_append, horders, horders', hseq, hnext, ← List.map_append,
      List.range'_append_1]

theorem exists_events {q : VisitEvent → Prop} {results : List Json} {parts : List (List JsString)}
    (h : List.Forall₂ (fun j ids => ∃ e : VisitEvent, j = e.toJson o session ∧ ids = [e.eventId] ∧
      q e) results parts) :
    ∃ events : List VisitEvent, results = events.map (VisitEvent.toJson o session) ∧
      parts.flatten = events.map VisitEvent.eventId ∧ ∀ e ∈ events, q e := by
  induction h with
  | nil => exact ⟨[], rfl, rfl, fun _ he => absurd he List.not_mem_nil⟩
  | cons hfirst _ ih =>
    obtain ⟨e, rfl, rfl, he⟩ := hfirst
    obtain ⟨events, rfl, hids, hall⟩ := ih
    exact ⟨e :: events, rfl, by rw [List.flatten_cons, hids]; rfl,
      List.forall_mem_cons.mpr ⟨he, hall⟩⟩

/-- **A session** is a visit. -/
theorem draws_playSession (hmost : mostActivities o ≤ 2 ^ 53) (hseq : orderSeq + 1 ≤ 2 ^ 32)
    (hid : ∃ k < 1000000, session.sessionId = js "session-u" ++ decimal session.userId ++
      js "-d" ++ decimal session.day ++ js "-" ++ decimal k) (hlogin : loginMs < 20 * 3600000) :
    Draws (scriptSource o.seedNumber) (uuidAt o.seedNumber) (104 + mostActivities o * 37)
      (fun result ids => ∃ v : Visit, v.session = session ∧ Plays o orderSeq [v] result ids)
      (playSession M.toJsMath o session loginMs orderSeq) := by
  have hcount : Draws (scriptSource o.seedNumber) (uuidAt o.seedNumber) 1
      (fun n ids => ids = [] ∧ 1 ≤ n ∧ n ≤ mostActivities o) (activityCount M.toJsMath o) :=
    fun i => ⟨[], ⟨rfl, activityCount_le M hmost o.seedNumber⟩, Nat.le_succ i, le_rfl,
      List.nil_sublist _⟩
  have hanswer : Draws (scriptSource o.seedNumber) (uuidAt o.seedNumber) 1
      (fun _ ids => ids = []) (draw Source.random) := draws_draw fun _ => rfl
  refine Draws.mono (draws_bind (m := 33) (n := 71 + mostActivities o * 37)
    (makesEvent_login M o) ?_) (fun _ _ h => h) (by omega)
  rintro _ _ ⟨login, rfl, rfl, hlogin_eq⟩
  refine Draws.mono (draws_bind (m := 1) (n := mostActivities o * 37 + 70) hcount ?_)
    (fun _ _ h => h) (by omega)
  rintro count _ ⟨rfl, hone, hmost⟩
  refine draws_bind ((draws_replicateM (makesEvent_activity M o) count).mono (fun _ _ h => h)
    (Nat.mul_le_mul_right 37 hmost)) ?_
  rintro activities _ ⟨hlength, parts, rfl, hparts⟩
  obtain ⟨activities, rfl, hids, hactivities⟩ := exists_events o hparts
  have hne : activities ≠ [] := by
    rintro rfl
    rw [List.map_nil, List.length_nil] at hlength
    omega
  refine draws_bind (m := 1) (n := 69) hanswer ?_
  rintro r _ rfl
  split_ifs
  · refine draws_bind (m := 37) (n := 32) (makesEvent_purchase M o hseq) ?_
    rintro _ _ ⟨purchase, rfl, rfl, hpurchase, horder⟩
    refine draws_bind (m := 32) (n := 0) (makesEvent_logout M o) ?_
    rintro _ _ ⟨logout, rfl, rfl, hlogout⟩
    refine draws_pure ⟨⟨session, loginMs, login, activities, some purchase, logout, hid, hlogin,
      hlogin_eq, hne, hactivities, ?_, hlogout⟩, rfl, ⟨?_, ?_, 1, le_rfl, rfl, ?_⟩⟩
    · rintro e he
      obtain rfl := Option.mem_some_iff.mp he
      exact hpurchase
    · simp [Visit.toJson, Visit.events]
    · simp [Visit.eventIds, Visit.events, hids]
    · simp [Visit.order?, horder]
  · refine (draws_bind (m := 32) (n := 0) (makesEvent_logout M o) ?_).mono (fun _ _ h => h)
      (by decide)
    rintro _ _ ⟨logout, rfl, rfl, hlogout⟩
    refine draws_pure ⟨⟨session, loginMs, login, activities, none, logout, hid, hlogin,
      hlogin_eq, hne, hactivities, by simp, hlogout⟩, rfl, ⟨?_, ?_, 0, Nat.zero_le 1, rfl, ?_⟩⟩
    · simp [Visit.toJson, Visit.events]
    · simp [Visit.eventIds, Visit.events, hids]
    · simp [Visit.order?]

/-- **A user's day** is a visit, or nothing after the first day. -/
theorem draws_userDay (hmost : mostActivities o ≤ 2 ^ 53) (orderSeq : ℕ)
    (hseq : orderSeq + 1 ≤ 2 ^ 32) (d u : ℕ) :
    Draws (scriptSource o.seedNumber) (uuidAt o.seedNumber) (107 + mostActivities o * 37)
      (fun result ids => ∃ visits : List Visit, (visits.map Visit.key).Sublist [(d, u)] ∧
        (d = 0 → visits.map Visit.key = [(d, u)]) ∧ Plays o orderSeq visits result ids)
      (userDay M.toJsMath o d u orderSeq) := by
  have hanswer : Draws (scriptSource o.seedNumber) (uuidAt o.seedNumber) 1
      (fun _ ids => ids = []) (draw Source.random) := draws_draw fun _ => rfl
  have hnumber : Draws (scriptSource o.seedNumber) (uuidAt o.seedNumber) 1
      (fun k ids => ids = [] ∧ k < 1000000) (floorRandom M.toJsMath 1000000) :=
    fun i => ⟨[], ⟨rfl, floorRandom_lt M o.seedNumber (n := 1000000) (by decide) (by decide)⟩,
      Nat.le_succ i, le_rfl, List.nil_sublist _⟩
  have hlogin : Draws (scriptSource o.seedNumber) (uuidAt o.seedNumber) 1
      (fun k ids => ids = [] ∧ k < 20 * 3600000) (floorProduct M.toJsMath [20, 3600, 1000]) :=
    fun i => ⟨[], ⟨rfl, floorProduct_lt M o.seedNumber [20, 3600] (by decide) (by decide)
      (by decide) (by decide)⟩, Nat.le_succ i, le_rfl, List.nil_sublist _⟩
  refine (draws_bind (m := 1) (n := 106 + mostActivities o * 37) hanswer ?_).mono
    (fun _ _ h => h) (by omega)
  rintro r _ rfl
  split_ifs with hskip
  · refine (draws_pure ⟨[], List.nil_sublist _, fun hzero => absurd hskip.2 (by omega),
      rfl, rfl, 0, le_rfl, rfl, rfl⟩).mono (fun _ _ h => h) (Nat.zero_le _)
  · refine (draws_bind (m := 1) (n := 105 + mostActivities o * 37) hnumber ?_).mono
      (fun _ _ h => h) (by omega)
    rintro k _ ⟨rfl, hk⟩
    refine (draws_bind (m := 1) (n := 104 + mostActivities o * 37) hlogin ?_).mono
      (fun _ _ h => h) (by omega)
    rintro loginMs _ ⟨rfl, hms⟩
    refine Draws.mono (draws_playSession M o hmost hseq ⟨k, hk, rfl⟩ hms) ?_ le_rfl
    rintro result ids ⟨v, hsession, hplays⟩
    have hkey : [v].map Visit.key = [(d, u)] := by
      rw [List.map_singleton, Visit.key, hsession]
    exact ⟨[v], hkey ▸ List.Sublist.refl _, fun _ => hkey, hplays⟩

/-- **The days of all users**, by induction on the two loops. -/
theorem draws_play (hmost : mostActivities o ≤ 2 ^ 53) : ∀ (days : List (ℕ × ℕ)) (orderSeq : ℕ),
    orderSeq + days.length ≤ 2 ^ 32 →
    Draws (scriptSource o.seedNumber) (uuidAt o.seedNumber)
      (days.length * (107 + mostActivities o * 37))
      (fun events ids => ∃ visits : List Visit, (visits.map Visit.key).Sublist days ∧
        (∀ p ∈ days, p.1 = 0 → p ∈ visits.map Visit.key) ∧
        ∃ last, Plays o orderSeq visits (events, last) ids) (play M.toJsMath o days orderSeq)
  | [], orderSeq, _ => (draws_pure ⟨[], List.Sublist.refl _, by simp, orderSeq, rfl, rfl, 0, le_rfl,
      rfl, rfl⟩).mono (fun _ _ h => h) (Nat.zero_le _)
  | (d, u) :: days, orderSeq, hseq => by
    rw [List.length_cons] at hseq
    refine (draws_bind (n := days.length * (107 + mostActivities o * 37))
      (draws_userDay M o hmost orderSeq (by omega) d u) ?_).mono
      (fun _ _ h => h) (by rw [List.length_cons, Nat.succ_mul]; omega)
    rintro ⟨events, next⟩ ids ⟨visits, hkeys, hfirst, hplays⟩
    have hnext : next ≤ orderSeq + 1 := by
      obtain ⟨k, hk, hadd, -⟩ := hplays.orders
      have hlength : visits.length ≤ 1 := by
        have hle := hkeys.length_le
        rwa [List.length_map] at hle
      have hadd : next = orderSeq + k := hadd
      omega
    refine draws_bind (n := 0) (draws_play hmost days next (by omega)) ?_
    rintro more ids' ⟨visits', hkeys', hfirst', last, hplays'⟩
    refine draws_pure ⟨visits ++ visits', ?_, ?_, last, ?_⟩
    · rw [List.map_append]
      exact hkeys.append hkeys'
    · rintro p hp hzero
      rw [List.map_append, List.mem_append]
      rcases List.mem_cons.mp hp with rfl | hp
      · left
        rw [hfirst hzero]
        exact List.mem_singleton_self _
      · exact .inr (hfirst' p hp hzero)
    · rw [List.append_nil]
      exact hplays.append hplays'

end Generate

end Dataset
