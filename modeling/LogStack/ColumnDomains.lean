/-
Which accepted events their columns refuse.

The decorators of the request and the column types of the schema define the admissible
values twice.  They disagree on the 32-bit `quantity`, on `U+0000` and unpaired surrogates,
on lengths that `Length` counts differently, and on instants that the server does not read.

* `FitsColumns` — the condition under which an accepted event can be stored;
* `column_domains` — for events with safe integers it is exact; one event that misses it, or on
  which the transformer throws, fails every batch it comes in.
-/
import LogStack.Ingestion
import Mathlib.Tactic.NormNum

open KeyedInsert
open Json (string? string?_eq_some integer?)
open JsString (isDigit isHexDigit)

namespace Ingestion

/-! ### The condition -/

/-- A string that `VARCHAR(n)` takes: no `U+0000`, and only spaces beyond `n` characters. -/
def Fits (n : ℕ) (s : JsString) : Prop := 0 ∉ s ∧ ∀ c ∈ s.characters.drop n, c = [0x20]

/-- The largest value of an `INTEGER` column. -/
def maxInteger : ℤ := 2147483647

structure EnvelopeFits (pg : Postgres) (envelope : Json) : Prop where
  sessionId : ∀ s, envelope.get? (js "session_id") = some (.str s) → Fits 64 s
  channelId : ∀ s, envelope.get? (js "channel_id") = some (.str s) → Fits 64 s
  payload : ∀ j, envelope.get? (js "payload") = some j → jsonbValue j = true
  occurredAt : ∀ s, envelope.get? (js "occurred_at") = some (.str s) →
    (pg.timestamptz s).isSome = true

structure PurchaseFits (payloadDto : Json) : Prop where
  orderId : ∀ s, payloadDto.get? (js "order_id") = some (.str s) → Fits 64 s
  productId : ∀ s, payloadDto.get? (js "product_id") = some (.str s) → Fits 64 s
  productName : ∀ s, payloadDto.get? (js "product_name") = some (.str s) → Fits 128 s
  quantity : ∀ z, integer? (payloadDto.get? (js "quantity")) = some z → z ≤ maxInteger

/-- The transformer copies the raw event, and the values of the copy fit their columns. -/
def FitsColumns (L : Libraries) (pg : Postgres) (raw : Json) : Prop :=
  ∃ envelope, L.plainToInstance raw = some envelope ∧ EnvelopeFits pg envelope ∧
    (envelope.get? (js "event_type") = some (.str EventType.shopPurchase.name) →
      ∃ payload payloadDto, envelope.get? (js "payload") = some payload ∧
        L.plainToInstance payload = some payloadDto ∧ PurchaseFits payloadDto)

/-- The integers of an event are safe. -/
structure SafeIntegers (e : NormalizedEvent) : Prop where
  userId : -2 ^ 53 < e.userId ∧ e.userId < 2 ^ 53
  characterId : -2 ^ 53 < e.characterId ∧ e.characterId < 2 ^ 53
  amountMinor : ∀ p ∈ e.purchase, p.amountMinor < 2 ^ 53

/-- Every value bound for an event lies in the domain of its column. -/
def InDomain (pg : Postgres) (e : NormalizedEvent) : Prop :=
  (gameEventRow pg e).isSome = true ∧
    (e.purchase.isSome = true → (boundPurchase pg e).isSome = true)

instance (e : NormalizedEvent) : Decidable (SafeIntegers e) :=
  decidable_of_iff ((-2 ^ 53 < e.userId ∧ e.userId < 2 ^ 53) ∧
      (-2 ^ 53 < e.characterId ∧ e.characterId < 2 ^ 53) ∧
      ∀ p ∈ e.purchase, p.amountMinor < 2 ^ 53)
    ⟨fun ⟨h₁, h₂, h₃⟩ => ⟨h₁, h₂, h₃⟩, fun ⟨h₁, h₂, h₃⟩ => ⟨h₁, h₂, h₃⟩⟩

instance (pg : Postgres) (e : NormalizedEvent) : Decidable (InDomain pg e) :=
  inferInstanceAs (Decidable (_ ∧ _))

/-! ### Column by column -/

variable {L : Libraries} {pg : Postgres} {e : NormalizedEvent} {p : Purchase}

theorem carried_eq_space {c : JsString} : carried c = [0x20] ↔ c = [0x20] := by
  match c with
  | [] => simp [carried]
  | [u] =>
    rw [carried]
    split_ifs with hu
    · constructor
      · intro h
        simp at h
      · intro h
        rw [List.cons.inj h |>.1] at hu
        simp [JsString.isSurrogate, JsString.isHighSurrogate, JsString.isLowSurrogate] at hu
    · rfl
  | _ :: _ :: _ => simp [carried]

theorem isSome_varchar? {n : ℕ} {s : JsString} : (varchar? n s).isSome = true ↔ Fits n s := by
  rw [varchar?, text?, Fits]
  by_cases hzero : 0 ∈ s
  · simp [hzero]
  · rw [if_neg hzero, Option.bind_some, ← List.map_drop]
    constructor
    · intro h
      split_ifs at h with hspaces
      · refine ⟨hzero, fun c hc => carried_eq_space.mp ?_⟩
        exact of_decide_eq_true (List.all_eq_true.mp hspaces _ (List.mem_map_of_mem hc))
      · simp at h
    · rintro ⟨-, h⟩
      rw [if_pos, Option.isSome_some]
      refine List.all_eq_true.mpr fun c hc => ?_
      obtain ⟨d, hd, rfl⟩ := List.mem_map.mp hc
      exact decide_eq_true (carried_eq_space.mpr (h d hd))

theorem isHexDigit_lower {u : UInt16} (h : isHexDigit u = true) :
    isHexDigit (if 0x41 ≤ u && u ≤ 0x5A then u + 0x20 else u) = true := by
  simp only [isHexDigit, isDigit, Bool.or_eq_true, Bool.and_eq_true, decide_eq_true_iff] at h ⊢
  split_ifs <;> grind

theorem isUuidText_toLowerCase {s : JsString} (h : isUuidText s = true) :
    isUuidText s.toLowerCase = true := by
  simp only [isUuidText, Bool.and_eq_true, decide_eq_true_iff, List.all_eq_true] at h ⊢
  obtain ⟨hlength, hall⟩ := h
  refine ⟨by simpa [JsString.toLowerCase] using hlength, fun p hp => ?_⟩
  rw [JsString.toLowerCase, List.zipIdx_map] at hp
  obtain ⟨q, hq, rfl⟩ := List.mem_map.mp hp
  have hchar := hall q hq
  simp only [id_eq, Prod.map_snd, Prod.map_fst] at hchar ⊢
  by_cases hhyphen : q.2 ∈ [8, 13, 18, 23]
  · rw [if_pos hhyphen, decide_eq_true_iff] at hchar
    rw [if_pos hhyphen]
    refine decide_eq_true ?_
    rw [hchar]
    rfl
  · rw [if_neg hhyphen] at hchar ⊢
    simpa using isHexDigit_lower hchar

theorem length_characters_le : ∀ s : JsString, s.characters.length ≤ s.length
  | [] => le_rfl
  | [_] => le_rfl
  | u :: v :: rest => by
    rw [JsString.characters]
    split_ifs
    · have hrest := length_characters_le rest
      simp only [List.length_cons]
      omega
    · have hrest := length_characters_le (v :: rest)
      simp only [List.length_cons] at hrest ⊢
      omega

theorem isSome_varchar?_currency {s : JsString} (h : isCurrencyCode s = true) :
    (varchar? 3 s).isSome = true := by
  simp only [isCurrencyCode, Bool.and_eq_true, decide_eq_true_iff, List.all_eq_true] at h
  refine isSome_varchar?.mpr ⟨fun hzero => absurd (h.2 0 hzero).1 (by decide), ?_⟩
  have hlength := length_characters_le s
  rw [List.drop_eq_nil_of_le (by omega)]
  simp

theorem isSome_signed?_of_safe {z : ℤ} (h : -2 ^ 53 < z ∧ z < 2 ^ 53) :
    (signed? 64 (pg.written z)).isSome = true := by
  rw [signed?, pg.written_eq z h.1 h.2, if_pos, Option.isSome_some]
  constructor
  · exact le_of_lt (lt_trans (by norm_num) h.1)
  · exact lt_trans h.2 (by norm_num)

/-- The integer of a quantity fits just when it is not above the largest. -/
theorem isSome_signed?_quantity {z : ℤ} (h : 1 ≤ z) :
    (signed? 32 (pg.written z)).isSome = true ↔ z ≤ maxInteger := by
  rw [signed?, maxInteger]
  by_cases hsafe : z < 2 ^ 53
  · rw [pg.written_eq z (lt_of_lt_of_le (by norm_num) h) hsafe]
    constructor
    · intro hsome
      split_ifs at hsome with hrange
      · norm_num at hrange
        omega
      · simp at hsome
    · intro hz
      rw [if_pos, Option.isSome_some]
      norm_num
      omega
  · have hlarge : pg.written (2 ^ 53 - 1) ≤ pg.written z := pg.written_mono _ _ (by omega)
    rw [pg.written_eq (2 ^ 53 - 1) (by norm_num) (by norm_num)] at hlarge
    rw [if_neg (by norm_num at hlarge ⊢; omega)]
    simp
    omega

/-! ### Row by row -/

variable {envelope payloadDto : Json}

theorem isSome_bind {α β : Type} {x : Option α} {f : α → Option β} :
    (x.bind f).isSome = true ↔ ∃ a, x = some a ∧ (f a).isSome = true := by
  cases x <;> simp

theorem isSome_gameEventRow : (gameEventRow pg e).isSome = true ↔
    (uuid? e.eventId).isSome = true ∧ (uuid? e.instanceId).isSome = true ∧
      (signed? 64 (pg.written e.userId)).isSome = true ∧
      (signed? 64 (pg.written e.characterId)).isSome = true ∧
      (varchar? 64 e.sessionId).isSome = true ∧ (varchar? 64 e.channelId).isSome = true ∧
      (jsonb? e.payload).isSome = true ∧ (pg.timestamptz e.occurredAt).isSome = true := by
  have hname : varchar? 32 e.eventType.name = some e.eventType.name := varchar?_name _
  simp only [gameEventRow, Option.bind_eq_bind, isSome_bind, hname, Option.some.injEq,
    exists_eq_left', Option.pure_def, Option.isSome_some, and_true, exists_and_right,
    ← Option.isSome_iff_exists]

theorem signed?_eq_some {bits : ℕ} {z w : ℤ} (h : signed? bits z = some w) : w = z := by
  rw [signed?] at h
  split_ifs at h
  exact (Option.some.inj h).symm

/-- A written number keeps its sign. -/
theorem le_written {least z : ℤ} (h : least ≤ z) (hleast : 0 ≤ least ∧ least < 2 ^ 53) :
    least ≤ pg.written z := by
  have hmono := pg.written_mono least z h
  rwa [pg.written_eq least (by omega) hleast.2] at hmono

theorem isSome_purchaseRow (hquantity : 1 ≤ p.quantity) (hamount : 0 ≤ p.amountMinor) :
    (purchaseRow pg e p).isSome = true ↔
      (uuid? e.eventId).isSome = true ∧ (varchar? 64 p.orderId).isSome = true ∧
      (signed? 64 (pg.written e.userId)).isSome = true ∧
      (pg.timestamptz e.occurredAt).isSome = true ∧ (varchar? 64 p.productId).isSome = true ∧
      (varchar? 128 p.productName).isSome = true ∧
      (signed? 32 (pg.written p.quantity)).isSome = true ∧
      (signed? 64 (pg.written p.amountMinor)).isSome = true ∧
      (varchar? 3 p.currency).isSome = true := by
  simp only [purchaseRow, Option.bind_eq_bind, isSome_bind]
  constructor
  · rintro ⟨_, h₁, _, h₂, _, h₃, _, h₄, _, h₅, _, h₆, _, h₇, _, h₈, _, h₉, -⟩
    simp [h₁, h₂, h₃, h₄, h₅, h₆, h₇, h₈, h₉]
  · simp only [Option.isSome_iff_exists]
    rintro ⟨⟨_, h₁⟩, ⟨_, h₂⟩, ⟨_, h₃⟩, ⟨_, h₄⟩, ⟨_, h₅⟩, ⟨_, h₆⟩, ⟨_, h₇⟩, ⟨_, h₈⟩, ⟨_, h₉⟩⟩
    refine ⟨_, h₁, _, h₂, _, h₃, _, h₄, _, h₅, _, h₆, _, h₇, _, h₈, _, h₉, ?_⟩
    have hchecks : 1 ≤ pg.written p.quantity ∧ 0 ≤ pg.written p.amountMinor :=
      ⟨le_written hquantity (by norm_num), le_written hamount (by norm_num)⟩
    rw [signed?_eq_some h₇, signed?_eq_some h₈, if_pos hchecks]
    exact ⟨_, rfl⟩

/-- What the envelope's check leaves to the columns of `game_events`. -/
theorem isSome_gameEventRow_iff (hchecked : Checked L e) (hsafe : SafeIntegers e) :
    (gameEventRow pg e).isSome = true ↔ Fits 64 e.sessionId ∧ Fits 64 e.channelId ∧
      jsonbValue e.payload = true ∧ (pg.timestamptz e.occurredAt).isSome = true := by
  have huuid : ∀ {s t : JsString}, L.isUUID s = true → t = s.toLowerCase →
      (uuid? t).isSome = true := by
    rintro s _ hs rfl
    rw [uuid?, if_pos (isUuidText_toLowerCase (L.isUuidText_of_isUUID s hs)), Option.isSome_some]
  obtain ⟨s, hs, hid⟩ := hchecked.eventId
  obtain ⟨t, ht, hinstance⟩ := hchecked.instanceId
  have hjsonb : (jsonb? e.payload).isSome = true ↔ jsonbValue e.payload = true := by
    rw [jsonb?]
    split_ifs with h <;> simp [h]
  rw [isSome_gameEventRow, hjsonb, isSome_varchar?, isSome_varchar?]
  simp only [huuid hs hid, huuid ht hinstance, isSome_signed?_of_safe hsafe.userId,
    isSome_signed?_of_safe hsafe.characterId, true_and]

variable (pg) in
/-- What the payload's check leaves to the columns of `purchases`. -/
theorem isSome_boundPurchase_iff (hchecked : Checked L e) (hpurchase : p.Checked L)
    (hsafe : SafeIntegers e) (hp : e.purchase = some p)
    (htime : (pg.timestamptz e.occurredAt).isSome = true) :
    (boundPurchase pg e).isSome = true ↔ Fits 64 p.orderId ∧ Fits 64 p.productId ∧
      Fits 128 p.productName ∧ p.quantity ≤ maxInteger := by
  obtain ⟨s, hs, hid⟩ := hchecked.eventId
  have huuid : (uuid? e.eventId).isSome = true := by
    rw [hid, uuid?, if_pos (isUuidText_toLowerCase (L.isUuidText_of_isUUID s hs)),
      Option.isSome_some]
  have hamount : -2 ^ 53 < p.amountMinor ∧ p.amountMinor < 2 ^ 53 :=
    ⟨lt_of_lt_of_le (by norm_num) hpurchase.amountMinor, hsafe.amountMinor p hp⟩
  rw [boundPurchase, hp, Option.bind_some,
    isSome_purchaseRow hpurchase.quantity hpurchase.amountMinor, isSome_varchar?,
    isSome_varchar?, isSome_varchar?, isSome_signed?_quantity hpurchase.quantity]
  simp only [huuid, htime, isSome_signed?_of_safe hsafe.userId, isSome_signed?_of_safe hamount,
    isSome_varchar?_currency hpurchase.currency, true_and, and_true]

/-! ### The exact condition -/

theorem envelopeFits_iff (h : normalize envelope = some e) : EnvelopeFits pg envelope ↔
    Fits 64 e.sessionId ∧ Fits 64 e.channelId ∧ jsonbValue e.payload = true ∧
      (pg.timestamptz e.occurredAt).isSome = true := by
  obtain ⟨-, -, -, -, -, hsession, hchannel, hpayload, htime, -⟩ := normalize_eq_some.mp h
  rw [string?_eq_some] at hsession hchannel htime
  constructor
  · intro hfits
    exact ⟨hfits.sessionId _ hsession, hfits.channelId _ hchannel, hfits.payload _ hpayload,
      hfits.occurredAt _ htime⟩
  · rintro ⟨hsession', hchannel', hpayload', htime'⟩
    refine ⟨fun s hs => ?_, fun s hs => ?_, fun j hj => ?_, fun s hs => ?_⟩
    · rw [hsession, Option.some.injEq, Json.str.injEq] at hs
      exact hs ▸ hsession'
    · rw [hchannel, Option.some.injEq, Json.str.injEq] at hs
      exact hs ▸ hchannel'
    · rw [hpayload, Option.some.injEq] at hj
      exact hj ▸ hpayload'
    · rw [htime, Option.some.injEq, Json.str.injEq] at hs
      exact hs ▸ htime'

theorem purchaseFits_iff (h : purchaseOf payloadDto = some p) : PurchaseFits payloadDto ↔
    Fits 64 p.orderId ∧ Fits 64 p.productId ∧ Fits 128 p.productName ∧
      p.quantity ≤ maxInteger := by
  obtain ⟨horder, hproduct, hname, hquantity, -, -⟩ := purchaseOf_eq_some.mp h
  rw [string?_eq_some] at horder hproduct hname
  constructor
  · intro hfits
    exact ⟨hfits.orderId _ horder, hfits.productId _ hproduct, hfits.productName _ hname,
      hfits.quantity _ hquantity⟩
  · rintro ⟨horder', hproduct', hname', hquantity'⟩
    refine ⟨fun s hs => ?_, fun s hs => ?_, fun s hs => ?_, fun z hz => ?_⟩
    · rw [horder, Option.some.injEq, Json.str.injEq] at hs
      exact hs ▸ horder'
    · rw [hproduct, Option.some.injEq, Json.str.injEq] at hs
      exact hs ▸ hproduct'
    · rw [hname, Option.some.injEq, Json.str.injEq] at hs
      exact hs ▸ hname'
    · rw [hquantity, Option.some.injEq] at hz
      exact hz ▸ hquantity'

/-- An accepted event fits its columns just when the values of the raw event do. -/
theorem inDomain_iff {raw : Json} (h : validateEvent L raw = some (.accepted e))
    (hsafe : SafeIntegers e) : InDomain pg e ↔ FitsColumns L pg raw := by
  obtain ⟨hchecked, hpchecked⟩ := checked_of_accepted h
  obtain ⟨-, envelope, hcopy, haccepts⟩ := validateEvent_eq_accepted.mp h
  rw [InDomain, isSome_gameEventRow_iff hchecked hsafe]
  cases haccepts with
  | plain hholds hnormal hother =>
    have htype := string?_eq_some.mp (normalize_eq_some.mp hnormal).2.2.1
    have hnone : e.purchase = none := (normalize_eq_some.mp hnormal).2.2.2.2.2.2.2.2.2
    rw [← envelopeFits_iff hnormal]
    constructor
    · rintro ⟨hfits, -⟩
      refine ⟨envelope, hcopy, hfits, fun hshop => absurd ?_ hother⟩
      rw [htype, Option.some.injEq, Json.str.injEq] at hshop
      exact EventType.name_injective hshop
    · rintro ⟨envelope', hcopy', hfits, -⟩
      -- the copy of the raw event is one value
      obtain rfl : envelope = envelope' := Option.some.inj (hcopy.symm.trans hcopy')
      exact ⟨hfits, by simp [hnone]⟩
  | @purchase base payloadDto p hholds hnormal hshop hcopied hpayload hparts =>
    have htype := string?_eq_some.mp (normalize_eq_some.mp hnormal).2.2.1
    have hbase := (normalize_eq_some.mp hnormal).2.2.2.2.2.2.2.1
    rw [← envelopeFits_iff (e := base) hnormal]
    have hbound := isSome_boundPurchase_iff pg hchecked (hpchecked p rfl) hsafe rfl
    constructor
    · rintro ⟨hfits, hp⟩
      refine ⟨envelope, hcopy, hfits, fun _ => ⟨base.payload, payloadDto, hbase, hcopied, ?_⟩⟩
      exact (purchaseFits_iff hparts).mpr
        ((hbound ((envelopeFits_iff hnormal).mp hfits).2.2.2).mp (hp rfl))
    · rintro ⟨envelope', hcopy', henvelope, hrest⟩
      obtain rfl : envelope = envelope' := Option.some.inj (hcopy.symm.trans hcopy')
      refine ⟨henvelope, fun _ => (hbound ((envelopeFits_iff hnormal).mp henvelope).2.2.2).mpr ?_⟩
      obtain ⟨payload, payloadDto', hget, hcopied', hfits⟩ := hrest (hshop ▸ htype)
      obtain rfl : base.payload = payload := Option.some.inj (hbase.symm.trans hget)
      obtain rfl : payloadDto = payloadDto' := Option.some.inj (hcopied.symm.trans hcopied')
      exact (purchaseFits_iff hparts).mp hfits

section Batch

variable {db : Database} {batchId : JsString} {events : List Json}
  {accepted : List NormalizedEvent} {rejected : List RejectedEvent}

theorem exists_raw_of_mem (h : validateEvents L 0 events = some (accepted, rejected))
    (he : e ∈ accepted) : ∃ raw ∈ events, validateEvent L raw = some (.accepted e) := by
  rw [accepted_eq h] at he
  obtain ⟨raw, hraw, he⟩ := List.mem_filterMap.mp he
  exact ⟨raw, hraw, acceptedEvent?_eq_some.mp he⟩

/-- A batch of which the transformer copies every event, and whose accepted events all fit, is
answered 200. -/
theorem ingest_of_fits (hcopies : ∀ raw ∈ events, Copyable L raw)
    (hfits : ∀ raw ∈ events, ∀ e, validateEvent L raw = some (.accepted e) →
      SafeIntegers e ∧ FitsColumns L pg raw) :
    ∃ response db', ingest L pg true batchId events db.toTables = (.ok response, db') ∧
      ∀ raw ∈ events, ∀ e, validateEvent L raw = some (.accepted e) → e.eventId ∈ db'.eventIds := by
  obtain ⟨accepted, rejected, h⟩ := exists_validateEvents 0 hcopies
  have hdomain : ∀ e ∈ accepted, InDomain pg e := by
    intro e he
    obtain ⟨raw, hraw, hvalid⟩ := exists_raw_of_mem h he
    obtain ⟨hsafe, hcolumns⟩ := hfits raw hraw e hvalid
    exact (inDomain_iff hvalid hsafe).mpr hcolumns
  have hcommits : Commits pg true db.toTables accepted := by
    refine .inr ⟨rfl, fun e he => ?_, fun e he => ?_⟩
    · exact (hdomain e (firstNew_sublist.mem he)).1
    · exact (hdomain e (firstNew_sublist.mem (firstNew_sublist.mem he))).2
  have hok : ingest L pg true batchId events db.toTables = _ := ingest_of_commits h hcommits
  exact ⟨_, _, hok, fun raw hraw e hvalid => mem_eventIds_of_ok hok hraw hvalid⟩

/-- A new event that does not fit fails its batch. -/
theorem ingest_of_not_fits {before after : List Json} {raw : Json}
    (hcopies : ∀ raw' ∈ before ++ raw :: after, Copyable L raw')
    (hvalid : validateEvent L raw = some (.accepted e)) (hsafe : SafeIntegers e)
    (hnew : e.eventId ∉ db.eventIds)
    (hfirst : ∀ raw' ∈ before, ∀ e', validateEvent L raw' = some (.accepted e') →
      e'.eventId ≠ e.eventId) (hfits : ¬FitsColumns L pg raw) :
    ingest L pg true batchId (before ++ raw :: after) db.toTables
      = (.unavailable, db.toTables) := by
  obtain ⟨accepted, rejected, h⟩ := exists_validateEvents 0 hcopies
  refine ingest_of_not_commits h fun hcommits => hfits ((inDomain_iff hvalid hsafe).mp ?_)
  have haccepted : accepted = before.filterMap (acceptedEvent? L)
      ++ e :: after.filterMap (acceptedEvent? L) := by
    rw [accepted_eq h, List.filterMap_append,
      List.filterMap_cons_some (acceptedEvent?_eq_some.mpr hvalid)]
  have hfirst' : ∀ e' ∈ before.filterMap (acceptedEvent? L), e'.eventId ≠ e.eventId := by
    intro e' he'
    obtain ⟨raw', hraw', he'⟩ := List.mem_filterMap.mp he'
    exact hfirst raw' hraw' e' (acceptedEvent?_eq_some.mp he')
  have hmem : ∀ known : List JsString, e.eventId ∉ known →
      e ∈ firstNew NormalizedEvent.eventId known accepted := fun known hknown =>
    haccepted ▸ mem_firstNew_of_first hknown hfirst'
  obtain ⟨-, hstorable⟩ := hcommits.resolve_left (haccepted ▸ by simp)
  refine ⟨hstorable.gameEvents e (hmem [] List.not_mem_nil), hstorable.purchases e ?_⟩
  rw [newEvents_unique]
  exact hmem _ hnew

end Batch

/-- **Column domains.** For accepted events with safe integers, `FitsColumns` is the exact
condition under which every bound value lies in the domain of its column. A batch of such
events is answered 200 and stored, unless the transformer throws on one of its events; a single
new event that misses the condition fails its whole batch, and so does an event on which the
transformer throws. -/
theorem column_domains (L : Libraries) (pg : Postgres) :
    (∀ raw e, validateEvent L raw = some (.accepted e) → SafeIntegers e →
      (InDomain pg e ↔ FitsColumns L pg raw)) ∧
    (∀ (db : Database) batchId events, (∀ raw ∈ events, Copyable L raw) →
      (∀ raw ∈ events, ∀ e, validateEvent L raw = some (.accepted e) →
        SafeIntegers e ∧ FitsColumns L pg raw) →
      ∃ response db', ingest L pg true batchId events db.toTables = (.ok response, db') ∧
        ∀ raw ∈ events, ∀ e, validateEvent L raw = some (.accepted e) →
          e.eventId ∈ db'.eventIds) ∧
    (∀ (db : Database) batchId before raw after e,
      (∀ raw' ∈ before ++ raw :: after, Copyable L raw') →
      validateEvent L raw = some (.accepted e) → SafeIntegers e → e.eventId ∉ db.eventIds →
      (∀ raw' ∈ before, ∀ e', validateEvent L raw' = some (.accepted e') →
        e'.eventId ≠ e.eventId) →
      ¬FitsColumns L pg raw →
      ingest L pg true batchId (before ++ raw :: after) db.toTables
        = (.unavailable, db.toTables)) ∧
    (∀ (db : Database) reachable batchId events,
      ingest L pg reachable batchId events db.toTables = (.failed, db.toTables) ↔
        ∃ raw ∈ events, ¬Copyable L raw) :=
  ⟨fun _ _ hvalid hsafe => inDomain_iff hvalid hsafe,
    fun _ _ _ hcopies hfits => ingest_of_fits hcopies hfits,
    fun _ _ _ _ _ _ hcopies hvalid hsafe hnew hfirst hfits =>
      ingest_of_not_fits hcopies hvalid hsafe hnew hfirst hfits,
    fun db _ _ _ => ingest_failed_iff db.toTables⟩

/-! ### A purchase of three billion -/

/-- `YYYY-MM-DDThh:mm:ss.sssZ` -/
def isTimestamp (s : JsString) : Bool :=
  s.length = 24 && (s.zip (js "0000-00-00T00:00:00.000Z")).all fun c =>
    if isDigit c.2 then isDigit c.1 else c.1 = c.2

def isVariationSelector (u : UInt16) : Bool := u = 0xfe0e || u = 0xfe0f

/-- The matches of `/[^\uFE0F\uFE0E][\uFE0F\uFE0E]/g`. -/
def presentationSequences : JsString → ℕ
  | u :: v :: rest =>
    if !isVariationSelector u && isVariationSelector v then presentationSequences rest + 1
    else presentationSequences (v :: rest)
  | _ => 0

/-- `isLength` counts a character and its variation selector as one. -/
def sampleChecks : StringChecks where
  isUUID := isUuidText
  isISO8601 := fun _ => isTimestamp
  measure := fun s => s.characters.length - presentationSequences s
  isUuidText_of_isUUID := fun _ h => h

/-- One error for each property with a decorator that fails. -/
def sampleErrors (dto : Dto) (value : Json) : List ValidationError :=
  (dto.filter fun property => property.2.any fun c =>
    !c.holds sampleChecks (value.get? property.1)).map fun property =>
      ⟨[(property.1, property.1 ++ js " is not valid")], []⟩

def sampleLibraries : Libraries where
  toStringChecks := sampleChecks
  plainToInstance := some
  copied := fun j _ h => Option.some.inj h ▸ Copied.refl j
  copyOf := id
  copied_copyOf := Copied.refl
  get?_plainToInstance := by
    rintro j i key ⟨rfl⟩ -
    exact (Option.map_id_apply).symm
  copyOf_arr := by
    intro items
    simp
  validateSync := sampleErrors
  validateSync_eq_nil := by
    intro dto value
    simp [sampleErrors, Dto.holds]

def newYear : JsString := js "2026-01-01T00:00:00.000Z"

def samplePostgres : Postgres where
  written := id
  written_eq := fun _ _ _ => rfl
  written_mono := fun _ _ h => h
  timestamptz := fun s => if s = newYear then some 1767225600000 else none

/-- A raw event at the turn of the year. -/
def sampleEvent (eventId : JsString) (type : EventType) (payload : List (JsString × Json)) :
    Json := .obj [
  (js "instance_id", .str (js "11111111-1111-4111-8111-111111111111")),
  (js "event_id", .str eventId),
  (js "event_type", .str type.name),
  (js "user_id", .nat 7),
  (js "character_id", .nat 70),
  (js "session_id", .str (js "session")),
  (js "channel_id", .str (js "channel")),
  (js "payload", .obj payload),
  (js "occurred_at", .str newYear)]

def samplePurchase (quantity : ℕ) : Json :=
  sampleEvent (js "22222222-2222-4222-8222-222222222222") .shopPurchase [
    (js "order_id", .str (js "order")),
    (js "product_id", .str (js "potion")),
    (js "product_name", .str (js "Potion")),
    (js "quantity", .nat quantity),
    (js "amount_minor", .nat 100),
    (js "currency", .str (js "KRW"))]

def sampleLogin : Json :=
  sampleEvent (js "33333333-3333-4333-8333-333333333333") .sessionLogin []

def Answer.isOk : Answer → Bool
  | .ok _ => true
  | _ => false

def Answer.isUnavailable : Answer → Bool
  | .unavailable => true
  | _ => false

theorem Answer.eq_unavailable {a : Answer} (h : a.isUnavailable = true) : a = .unavailable := by
  cases a with
  | unavailable => rfl
  | ok response => cases h
  | failed => cases h

theorem exists_accepted {L : Libraries} {raw : Json} {p : NormalizedEvent → Prop}
    [DecidablePred p] (h : (acceptedEvent? L raw).any (fun e => p e) = true) :
    ∃ e, validateEvent L raw = some (.accepted e) ∧ p e := by
  cases he : acceptedEvent? L raw with
  | none => simp [he] at h
  | some e => exact ⟨e, acceptedEvent?_eq_some.mp he, by simpa [he] using h⟩

/-- The event passes validation with safe integers, its quantity has no place in the column,
and the login that comes with it is not stored either. -/
theorem quantity_fails_batch :
    (∃ e, validateEvent sampleLibraries (samplePurchase 3000000000) = some (.accepted e) ∧
      SafeIntegers e ∧ ¬InDomain samplePostgres e) ∧
    (∃ e, validateEvent sampleLibraries sampleLogin = some (.accepted e) ∧
      SafeIntegers e ∧ InDomain samplePostgres e) ∧
    (ingest sampleLibraries samplePostgres true newYear
      [samplePurchase 3000000000, sampleLogin] Database.empty.toTables).1 = .unavailable :=
  ⟨exists_accepted (by decide +kernel), exists_accepted (by decide +kernel),
    Answer.eq_unavailable (by decide +kernel)⟩

/-- The condition tells a purchase of three from one of three billion. -/
theorem column_domains_sample : FitsColumns sampleLibraries samplePostgres (samplePurchase 3) ∧
    ¬FitsColumns sampleLibraries samplePostgres (samplePurchase 3000000000) := by
  obtain ⟨few, hfew, hsafe, hdomain⟩ : ∃ e,
      validateEvent sampleLibraries (samplePurchase 3) = some (.accepted e) ∧
        SafeIntegers e ∧ InDomain samplePostgres e := exists_accepted (by decide +kernel)
  obtain ⟨many, hmany, hsafe', hdomain'⟩ : ∃ e,
      validateEvent sampleLibraries (samplePurchase 3000000000) = some (.accepted e) ∧
        SafeIntegers e ∧ ¬InDomain samplePostgres e := exists_accepted (by decide +kernel)
  have hiff := (column_domains sampleLibraries samplePostgres).1
  exact ⟨(hiff _ few hfew hsafe).mp hdomain, fun h => hdomain' ((hiff _ many hmany hsafe').mpr h)⟩

end Ingestion
