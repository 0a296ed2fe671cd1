/-
The two tables and the transaction that stores a batch.

* `uuid?`, `varchar?`, `jsonb?`, `signed?` — what a column makes of a bound value; `none` is
  a data exception;
* `Tables`, `Database` — the rows, and the rows with the constraints of the schema;
* `storeBatch` — the two inserts of the transaction; `none` where a statement raises an
  error, and the transaction is rolled back;
* `storeBatch_of_storable` — what they add to a database.
-/
import LogStack.EventValidation
import LogStack.KeyedInsert
import Mathlib.Data.List.Forall2

open KeyedInsert

namespace Ingestion

/-! ### Columns -/

/-- A character as UTF-8 carries it: an unpaired surrogate becomes `U+FFFD`. -/
def carried : JsString → JsString
  | [u] => if JsString.isSurrogate u then [0xFFFD] else [u]
  | c => c

/-- The characters of a `TEXT` value: it cannot contain `U+0000`. -/
def text? (s : JsString) : Option (List JsString) :=
  if 0 ∈ s then none else some (s.characters.map carried)

/-- `VARCHAR(n)` and `CHAR(n)`: beyond `n` characters only spaces may stand, and they are cut. -/
def varchar? (n : ℕ) (s : JsString) : Option JsString :=
  (text? s).bind fun cs =>
    if (cs.drop n).all fun c => c = [0x20] then some (cs.take n).flatten else none

/-- `UUID`: the canonical form is in lower case. -/
def uuid? (s : JsString) : Option JsString :=
  if isUuidText s then some s.toLowerCase else none

/-- A signed integer column of `bits` bits. -/
def signed? (bits : ℕ) (z : ℤ) : Option ℤ :=
  if -2 ^ (bits - 1) ≤ z ∧ z < 2 ^ (bits - 1) then some z else none

/-- A string inside a `JSONB` value: no `U+0000`, no unpaired surrogate. -/
def jsonbString (s : JsString) : Bool :=
  0 ∉ s && s.characters.all fun c => c.length ≠ 1 || !c.all JsString.isSurrogate

mutual

/-- The values of a `JSONB` column. -/
def jsonbValue : Json → Bool
  | .null | .bool _ | .num _ => true
  | .str s => jsonbString s
  | .arr items => jsonbItems items
  | .obj fields => jsonbFields fields

def jsonbItems : List Json → Bool
  | [] => true
  | j :: rest => jsonbValue j && jsonbItems rest

def jsonbFields : List (JsString × Json) → Bool
  | [] => true
  | f :: rest => jsonbString f.1 && jsonbValue f.2 && jsonbFields rest

end

def jsonb? (j : Json) : Option Json := if jsonbValue j then some j else none

/-- What the driver and the server make of the other bound values. `written z` is the integer
whose digits stand for the number `z`, exact for safe integers and rounded beyond them;
`timestamptz` reads an instant in milliseconds since the epoch, and answers `none` where the
cast fails. -/
structure Postgres where
  written : ℤ → ℤ
  written_eq : ∀ z, -2 ^ 53 < z → z < 2 ^ 53 → written z = z
  written_mono : ∀ y z, y ≤ z → written y ≤ written z
  timestamptz : JsString → Option ℤ

/-! ### Tables -/

structure GameEventRow where
  eventId : JsString
  instanceId : JsString
  eventType : JsString
  userId : ℤ
  characterId : ℤ
  sessionId : JsString
  channelId : JsString
  payload : Json
  occurredAt : ℤ

structure PurchaseRow where
  eventId : JsString
  orderId : JsString
  userId : ℤ
  occurredAt : ℤ
  productId : JsString
  productName : JsString
  quantity : ℤ
  amountMinor : ℤ
  currency : JsString
  deriving DecidableEq

structure Tables where
  gameEvents : List GameEventRow
  purchases : List PurchaseRow

namespace Tables

variable (db : Tables)

def eventIds : List JsString := db.gameEvents.map GameEventRow.eventId

def orderIds : List JsString := db.purchases.map PurchaseRow.orderId

/-- The constraints of the schema: the two primary keys, the unique order, the foreign key and
the two checks. -/
structure Schema : Prop where
  eventIds_nodup : db.eventIds.Nodup
  purchaseIds_nodup : (db.purchases.map PurchaseRow.eventId).Nodup
  orderIds_nodup : db.orderIds.Nodup
  foreignKey : ∀ p ∈ db.purchases, p.eventId ∈ db.eventIds
  checks : ∀ p ∈ db.purchases, 1 ≤ p.quantity ∧ 0 ≤ p.amountMinor

end Tables

/-- Tables that satisfy their constraints. -/
structure Database extends Tables where
  schema : toTables.Schema

theorem Database.eq_of_toTables {db db' : Database} (h : db.toTables = db'.toTables) :
    db = db' := by
  cases db
  cases db'
  cases h
  rfl

/-- The empty tables. -/
def Database.empty : Database :=
  ⟨⟨[], []⟩, List.nodup_nil, List.nodup_nil, List.nodup_nil, by simp, by simp⟩

/-! ### The transaction -/

variable (pg : Postgres)

/-- The values bound for a row of `game_events`. -/
def gameEventRow (e : NormalizedEvent) : Option GameEventRow := do
  pure {
    eventId := ← uuid? e.eventId
    instanceId := ← uuid? e.instanceId
    eventType := ← varchar? 32 e.eventType.name
    userId := ← signed? 64 (pg.written e.userId)
    characterId := ← signed? 64 (pg.written e.characterId)
    sessionId := ← varchar? 64 e.sessionId
    channelId := ← varchar? 64 e.channelId
    payload := ← jsonb? e.payload
    occurredAt := ← pg.timestamptz e.occurredAt }

/-- The values bound for a row of `purchases`, its two checks included. -/
def purchaseRow (e : NormalizedEvent) (p : Purchase) : Option PurchaseRow := do
  let row : PurchaseRow := {
    eventId := ← uuid? e.eventId
    orderId := ← varchar? 64 p.orderId
    userId := ← signed? 64 (pg.written e.userId)
    occurredAt := ← pg.timestamptz e.occurredAt
    productId := ← varchar? 64 p.productId
    productName := ← varchar? 128 p.productName
    quantity := ← signed? 32 (pg.written p.quantity)
    amountMinor := ← signed? 64 (pg.written p.amountMinor)
    currency := ← varchar? 3 p.currency }
  if 1 ≤ row.quantity ∧ 0 ≤ row.amountMinor then some row else none

/-- The row of `purchases` that is bound for an event. -/
def boundPurchase (e : NormalizedEvent) : Option PurchaseRow :=
  e.purchase.bind (purchaseRow pg e)

/-- `INSERT INTO purchases … ON CONFLICT (order_id) DO NOTHING` of one row; a conflict on the
primary key is an error. -/
def insertPurchase (table : List PurchaseRow) (row : PurchaseRow) : Option (List PurchaseRow) :=
  if row.orderId ∈ table.map PurchaseRow.orderId then some table
  else if row.eventId ∈ table.map PurchaseRow.eventId then none
  else some (table ++ [row])

/-- The whole statement, with the foreign key checked at its end. -/
def insertPurchases (db : Tables) (rows : List PurchaseRow) : Option (List PurchaseRow) := do
  let table ← rows.foldlM insertPurchase db.purchases
  if ∀ row ∈ table, row.eventId ∈ db.eventIds then some table else none

structure StoreBatchResult where
  storedEventIds : Finset JsString
  purchaseStoredEventIds : Finset JsString
  purchaseCandidateCount : ℕ

/-- `storeBatch`, with the tables that the transaction commits. -/
def storeBatch (events : List NormalizedEvent) (db : Tables) :
    Option (StoreBatchResult × Tables) := do
  let eventRows ← events.mapM (gameEventRow pg)
  let inserted := firstNew GameEventRow.eventId db.eventIds eventRows
  let db₁ : Tables := { db with gameEvents := db.gameEvents ++ inserted }
  let storedEventIds := (inserted.map GameEventRow.eventId).toFinset
  let candidates := events.filter fun e => e.purchase.isSome && e.eventId ∈ storedEventIds
  if candidates.isEmpty then return (⟨storedEventIds, ∅, 0⟩, db₁)
  let purchaseRows ← candidates.mapM (boundPurchase pg)
  let purchases ← insertPurchases db₁ purchaseRows
  let insertedPurchases := purchases.drop db.purchases.length
  return (⟨storedEventIds, (insertedPurchases.map PurchaseRow.eventId).toFinset,
    candidates.length⟩, { db₁ with purchases := purchases })

/-! ### What is stored -/

variable {pg} {e : NormalizedEvent} {p : Purchase}

theorem varchar?_name (t : EventType) : varchar? 32 t.name = some t.name := by
  cases t <;> decide +kernel

theorem isUuidText_of_uuid? {s t : JsString} (h : uuid? s = some t) : t = s.toLowerCase := by
  rw [uuid?] at h
  split_ifs at h
  exact (Option.some.inj h).symm

theorem eventId_of_gameEventRow {row : GameEventRow} (h : gameEventRow pg e = some row) :
    row.eventId = e.eventId.toLowerCase := by
  obtain ⟨eventId, hid, h⟩ := Option.bind_eq_some_iff.mp h
  simp only [Option.bind_eq_bind, Option.bind_eq_some_iff, Option.pure_def,
    Option.some.injEq] at h
  obtain ⟨_, -, _, -, _, -, _, -, _, -, _, -, _, -, _, -, rfl⟩ := h
  exact isUuidText_of_uuid? hid

/-- What the other columns of a bound event hold, as far as it is the event that decides. -/
theorem columns_of_gameEventRow {row : GameEventRow} (h : gameEventRow pg e = some row) :
    uuid? e.instanceId = some row.instanceId ∧
      varchar? 32 e.eventType.name = some row.eventType ∧
      signed? 64 (pg.written e.userId) = some row.userId ∧
      pg.timestamptz e.occurredAt = some row.occurredAt := by
  simp only [gameEventRow, Option.bind_eq_bind, Option.bind_eq_some_iff, Option.pure_def,
    Option.some.injEq] at h
  obtain ⟨_, -, _, hinstance, _, htype, _, huser, _, -, _, -, _, -, _, -, _, htime, rfl⟩ := h
  exact ⟨hinstance, htype, huser, htime⟩

theorem purchaseRow_spec {row : PurchaseRow} (h : purchaseRow pg e p = some row) :
    row.eventId = e.eventId.toLowerCase ∧ 1 ≤ row.quantity ∧ 0 ≤ row.amountMinor := by
  obtain ⟨eventId, hid, h⟩ := Option.bind_eq_some_iff.mp h
  simp only [Option.bind_eq_bind, Option.bind_eq_some_iff] at h
  obtain ⟨_, -, _, -, _, -, _, -, _, -, _, -, _, -, _, -, h⟩ := h
  split_ifs at h with hchecks
  obtain rfl := Option.some.inj h
  exact ⟨isUuidText_of_uuid? hid, hchecks⟩

/-- What the columns of a bound purchase hold. -/
theorem columns_of_purchaseRow {row : PurchaseRow} (h : purchaseRow pg e p = some row) :
    varchar? 64 p.orderId = some row.orderId ∧
      signed? 64 (pg.written e.userId) = some row.userId ∧
      pg.timestamptz e.occurredAt = some row.occurredAt ∧
      signed? 64 (pg.written p.amountMinor) = some row.amountMinor ∧
      varchar? 3 p.currency = some row.currency := by
  simp only [purchaseRow, Option.bind_eq_bind, Option.bind_eq_some_iff] at h
  obtain ⟨_, -, _, horder, _, huser, _, htime, _, -, _, -, _, -, _, hamount, _, hcurrency, h⟩ := h
  split_ifs at h
  obtain rfl := Option.some.inj h
  exact ⟨horder, huser, htime, hamount, hcurrency⟩

section Rows

variable {α β : Type} {f : α → Option β} {xs : List α} {ys : List β}

theorem mapM_eq_some_iff : xs.mapM f = some ys ↔ xs.map f = ys.map some := by
  induction xs generalizing ys with
  | nil => cases ys <;> simp
  | cons x xs ih =>
    rw [List.mapM_cons]
    cases hx : f x with
    | none => cases ys <;> simp [hx]
    | some y =>
      cases hxs : xs.mapM f with
      | none =>
        have hne : ∀ zs : List β, xs.map f ≠ zs.map some := fun zs h => by
          simp [hxs] at ih
          exact ih h
        cases ys <;> simp [hx, hne]
      | some zs => cases ys <;> simp [hx, ← ih, hxs]

theorem mapM_eq_none_iff : xs.mapM f = none ↔ ∃ x ∈ xs, f x = none := by
  induction xs with
  | nil => simp
  | cons x xs ih =>
    rw [List.mapM_cons]
    cases hx : f x with
    | none => simp [hx]
    | some y =>
      cases hxs : xs.mapM f with
      | none => simpa [hx, hxs] using ih
      | some ys => simpa [hx, hxs] using ih

/-- The rows of the values that pass a test that reads the row. -/
theorem filter_rows {p : α → Bool} {q : β → Bool} (h : xs.map f = ys.map some)
    (hpq : ∀ x ∈ xs, ∀ y, f x = some y → q y = p x) :
    ys.filter q = (xs.filter p).filterMap f := by
  induction xs generalizing ys with
  | nil =>
    obtain rfl : ys = [] := by simpa using h.symm
    rfl
  | cons x xs ih =>
    cases ys with
    | nil => simp at h
    | cons y ys =>
      rw [List.map_cons, List.map_cons, List.cons.injEq] at h
      have htail := ih h.2 fun x' hx' => hpq x' (List.mem_cons_of_mem _ hx')
      have hhead := hpq x List.mem_cons_self y h.1
      cases hp : p x <;> simp [hhead, hp, htail, h.1]

theorem filterMap_rows (h : xs.map f = ys.map some) : xs.filterMap f = ys := by
  have hall := filter_rows (p := fun _ => true) (q := fun _ => true) h fun _ _ _ _ => rfl
  simpa using hall.symm

theorem exists_rows (h : ∀ x ∈ xs, (f x).isSome = true) :
    ∃ ys : List β, xs.map f = ys.map some := by
  induction xs with
  | nil => exact ⟨[], rfl⟩
  | cons x xs ih =>
    obtain ⟨y, hy⟩ := Option.isSome_iff_exists.mp (h x List.mem_cons_self)
    obtain ⟨ys, hys⟩ := ih fun x' hx' => h x' (List.mem_cons_of_mem _ hx')
    exact ⟨y :: ys, by rw [List.map_cons, hy, hys, List.map_cons]⟩

/-- A column of the rows that can be read off the values. -/
theorem map_rows {κ : Type} {k : β → κ} {l : α → κ} (h : xs.map f = ys.map some)
    (hkl : ∀ x ∈ xs, ∀ y, f x = some y → k y = l x) : ys.map k = xs.map l := by
  induction xs generalizing ys with
  | nil =>
    obtain rfl : ys = [] := by simpa using h.symm
    rfl
  | cons x xs ih =>
    cases ys with
    | nil => simp at h
    | cons y ys =>
      rw [List.map_cons, List.map_cons, List.cons.injEq] at h
      rw [List.map_cons, List.map_cons, hkl x List.mem_cons_self y h.1,
        ih h.2 fun x' hx' => hkl x' (List.mem_cons_of_mem _ hx')]

theorem map_filterMap_rows {κ : Type} {k : β → κ} {l : α → κ}
    (hsome : ∀ x ∈ xs, (f x).isSome = true) (hkl : ∀ x ∈ xs, ∀ y, f x = some y → k y = l x) :
    (xs.filterMap f).map k = xs.map l := by
  obtain ⟨ys, hys⟩ := exists_rows hsome
  rw [filterMap_rows hys, map_rows hys hkl]

theorem length_filterMap_rows (hsome : ∀ x ∈ xs, (f x).isSome = true) :
    (xs.filterMap f).length = xs.length := by
  obtain ⟨ys, hys⟩ := exists_rows hsome
  rw [filterMap_rows hys, ← List.length_map some, ← hys, List.length_map]

theorem map_filterMap_sublist {κ : Type} {k : β → κ} {l : α → κ}
    (hkl : ∀ x ∈ xs, ∀ y, f x = some y → k y = l x) :
    ((xs.filterMap f).map k).Sublist (xs.map l) := by
  induction xs with
  | nil => exact List.Sublist.slnil
  | cons x xs ih =>
    have htail := ih fun x' hx' => hkl x' (List.mem_cons_of_mem _ hx')
    cases hx : f x with
    | none =>
      rw [List.filterMap_cons_none hx]
      exact htail.cons _
    | some y =>
      rw [List.filterMap_cons_some hx, List.map_cons, List.map_cons,
        hkl x List.mem_cons_self y hx]
      exact htail.cons_cons _

end Rows

/-- Purchases of new events never hit the primary key. -/
theorem foldlM_insertPurchase {table rows : List PurchaseRow}
    (hnodup : (rows.map PurchaseRow.eventId).Nodup)
    (hnew : ∀ row ∈ rows, row.eventId ∉ table.map PurchaseRow.eventId) :
    rows.foldlM insertPurchase table
      = some (table ++ firstNew PurchaseRow.orderId (table.map PurchaseRow.orderId) rows) := by
  rw [← foldl_insertNew]
  induction rows generalizing table with
  | nil => rfl
  | cons row rows ih =>
    obtain ⟨hhead, htail⟩ := List.nodup_cons.mp hnodup
    have hstep : insertPurchase table row = some (insertNew PurchaseRow.orderId table row) := by
      rw [insertPurchase, insertNew, if_neg (hnew row List.mem_cons_self)]
      split_ifs <;> rfl
    rw [List.foldlM_cons, hstep, List.foldl_cons]
    refine ih htail fun row' hrow' hmem => ?_
    have hold := hnew row' (List.mem_cons_of_mem _ hrow')
    rw [insertNew] at hmem
    split_ifs at hmem
    · exact hold hmem
    · rw [List.map_append, List.mem_append] at hmem
      refine hmem.elim hold fun heq => hhead ?_
      rw [← List.mem_singleton.mp heq]
      exact List.mem_map_of_mem hrow'

/-- The whole statement, for events that are in the table by now. -/
theorem insertPurchases_eq {db : Tables} {rows : List PurchaseRow}
    (hnodup : (rows.map PurchaseRow.eventId).Nodup)
    (hnew : ∀ row ∈ rows, row.eventId ∉ db.purchases.map PurchaseRow.eventId)
    (hold : ∀ row ∈ db.purchases, row.eventId ∈ db.eventIds)
    (hrows : ∀ row ∈ rows, row.eventId ∈ db.eventIds) :
    insertPurchases db rows
      = some (db.purchases ++ firstNew PurchaseRow.orderId db.orderIds rows) := by
  rw [insertPurchases, foldlM_insertPurchase hnodup hnew, Option.bind_eq_bind, Option.bind_some]
  refine if_pos fun row hrow => ?_
  rcases List.mem_append.mp hrow with hrow | hrow
  · exact hold row hrow
  · exact hrows row (firstNew_sublist.mem hrow)

/-- The events that are not stored yet. -/
def newEvents (db : Tables) (events : List NormalizedEvent) : List NormalizedEvent :=
  firstNew NormalizedEvent.eventId db.eventIds events

variable (pg) in
/-- Every value that the transaction binds lies in the domain of its column. -/
structure Storable (db : Tables) (events : List NormalizedEvent) : Prop where
  gameEvents : ∀ e ∈ events, (gameEventRow pg e).isSome = true
  purchases : ∀ e ∈ newEvents db events, e.purchase.isSome = true →
    (boundPurchase pg e).isSome = true

variable (pg) in
/-- The new rows of `purchases`: an order that is there already is skipped. -/
def newPurchases (db : Tables) (new : List NormalizedEvent) : List PurchaseRow :=
  firstNew PurchaseRow.orderId db.orderIds (new.filterMap (boundPurchase pg))

variable (pg) in
/-- The tables after new events have been stored. -/
def Tables.store (db : Tables) (new : List NormalizedEvent) : Tables where
  gameEvents := db.gameEvents ++ new.filterMap (gameEventRow pg)
  purchases := db.purchases ++ newPurchases pg db new

variable (pg) in
def storeResult (db : Tables) (new : List NormalizedEvent) : StoreBatchResult where
  storedEventIds := (new.map NormalizedEvent.eventId).toFinset
  purchaseStoredEventIds := ((newPurchases pg db new).map PurchaseRow.eventId).toFinset
  purchaseCandidateCount := (new.filter fun e => e.purchase.isSome).length

/-! ### Rows and their ids -/

/-- The stored rows have the ids of their events. -/
theorem map_eventId_rows {new : List NormalizedEvent}
    (hrows : ∀ e ∈ new, (gameEventRow pg e).isSome = true)
    (hcanon : ∀ e ∈ new, e.eventId.toLowerCase = e.eventId) :
    (new.filterMap (gameEventRow pg)).map GameEventRow.eventId
      = new.map NormalizedEvent.eventId :=
  map_filterMap_rows hrows fun e he _ hrow =>
    (eventId_of_gameEventRow hrow).trans (hcanon e he)

theorem boundPurchase_spec {row : PurchaseRow} (h : boundPurchase pg e = some row)
    (hcanon : e.eventId.toLowerCase = e.eventId) :
    row.eventId = e.eventId ∧ 1 ≤ row.quantity ∧ 0 ≤ row.amountMinor := by
  obtain ⟨p, -, hrow⟩ := Option.bind_eq_some_iff.mp h
  obtain ⟨hid, hchecks⟩ := purchaseRow_spec hrow
  exact ⟨hid.trans hcanon, hchecks⟩

/-- The rows of purchases have ids of their events. -/
theorem map_eventId_newPurchases (db : Tables) {new : List NormalizedEvent}
    (hcanon : ∀ e ∈ new, e.eventId.toLowerCase = e.eventId) :
    ((newPurchases pg db new).map PurchaseRow.eventId).Sublist
      (new.map NormalizedEvent.eventId) :=
  (firstNew_sublist.map _).trans (map_filterMap_sublist fun e he _ hrow =>
    (boundPurchase_spec hrow (hcanon e he)).1)

section StoreBatch

variable {db : Database} {events : List NormalizedEvent}

variable (db) in
/-- The first insert keeps the events that are new. -/
theorem firstNew_rows {rows : List GameEventRow}
    (hrows : events.map (gameEventRow pg) = rows.map some)
    (hcanon : ∀ e ∈ events, e.eventId.toLowerCase = e.eventId)
    (hnodup : (events.map NormalizedEvent.eventId).Nodup) :
    firstNew GameEventRow.eventId db.eventIds rows
      = (newEvents db.toTables events).filterMap (gameEventRow pg) := by
  have hkey : ∀ e ∈ events, ∀ row, gameEventRow pg e = some row → row.eventId = e.eventId :=
    fun e he row hrow => (eventId_of_gameEventRow hrow).trans (hcanon e he)
  rw [newEvents, firstNew_eq_filter (map_rows hrows hkey ▸ hnodup), firstNew_eq_filter hnodup]
  exact filter_rows hrows fun e he row hrow => by rw [hkey e he row hrow]

/-- The candidates are the purchases among the new events. -/
theorem candidates_eq {stored : Finset JsString}
    (hnodup : (events.map NormalizedEvent.eventId).Nodup)
    (hstored : stored
      = ((newEvents db.toTables events).map NormalizedEvent.eventId).toFinset) :
    (events.filter fun e => e.purchase.isSome && e.eventId ∈ stored)
      = (newEvents db.toTables events).filter fun e => e.purchase.isSome := by
  rw [newEvents, firstNew_eq_filter hnodup, List.filter_filter]
  refine List.filter_congr fun e he => congrArg (e.purchase.isSome && ·) ?_
  have hmem : e.eventId ∈ stored ↔ e.eventId ∉ db.eventIds := by
    rw [hstored, List.mem_toFinset, newEvents, mem_map_firstNew]
    exact and_iff_right (List.mem_map_of_mem he)
  exact decide_eq_decide.mpr hmem

variable (pg) in
/-- Only an event with a purchase binds one. -/
theorem filterMap_candidates (new : List NormalizedEvent) :
    (new.filter fun e => e.purchase.isSome).filterMap (boundPurchase pg)
      = new.filterMap (boundPurchase pg) := by
  rw [List.filterMap_filter]
  refine List.filterMap_congr fun e _ => ?_
  cases he : e.purchase with
  | none => simp [boundPurchase, he]
  | some p => simp

/-- The second insert: the candidates are new events, so their rows violate no constraint. -/
theorem insertPurchases_candidates {new : List NormalizedEvent} {rows : List PurchaseRow}
    (hrows : (new.filter fun e => e.purchase.isSome).map (boundPurchase pg) = rows.map some)
    (hcanon : ∀ e ∈ new, e.eventId.toLowerCase = e.eventId)
    (hnodup : (new.map NormalizedEvent.eventId).Nodup)
    (hnew : ∀ e ∈ new, e.eventId ∉ db.eventIds)
    (hstored : ∀ e ∈ new, (gameEventRow pg e).isSome = true) :
    insertPurchases ⟨db.gameEvents ++ new.filterMap (gameEventRow pg), db.purchases⟩ rows
      = some (db.purchases ++ firstNew PurchaseRow.orderId db.orderIds rows) := by
  have hids : rows.map PurchaseRow.eventId
      = (new.filter fun e => e.purchase.isSome).map NormalizedEvent.eventId :=
    map_rows hrows fun e he row hrow =>
      (boundPurchase_spec hrow (hcanon e (List.mem_filter.mp he).1)).1
  have hcandidate : ∀ row ∈ rows, row.eventId ∈ new.map NormalizedEvent.eventId ∧
      row.eventId ∉ db.eventIds := by
    intro row hrow
    have hmem : row.eventId ∈ (new.filter fun e => e.purchase.isSome).map
        NormalizedEvent.eventId := hids ▸ List.mem_map_of_mem hrow
    obtain ⟨e, he, heq⟩ := List.mem_map.mp hmem
    have hmem' := (List.mem_filter.mp he).1
    exact heq ▸ ⟨List.mem_map_of_mem hmem', hnew e hmem'⟩
  refine insertPurchases_eq (hids ▸ hnodup.sublist (List.filter_sublist.map _)) ?_ ?_ ?_
  · -- a stored purchase belongs to a stored event
    intro row hrow hmem
    obtain ⟨row', hrow', heq⟩ := List.mem_map.mp hmem
    exact (hcandidate row hrow).2 (heq ▸ db.schema.foreignKey row' hrow')
  · intro row hrow
    rw [Tables.eventIds, List.map_append]
    exact List.mem_append_left _ (db.schema.foreignKey row hrow)
  · intro row hrow
    rw [Tables.eventIds, List.map_append, map_eventId_rows hstored hcanon]
    exact List.mem_append_right _ (hcandidate row hrow).1

/-- **The transaction.** When every bound value fits, the new events are stored, and so are
the purchases among them whose order is new. -/
theorem storeBatch_of_storable (hcanon : ∀ e ∈ events, e.eventId.toLowerCase = e.eventId)
    (hnodup : (events.map NormalizedEvent.eventId).Nodup)
    (h : Storable pg db.toTables events) :
    storeBatch pg events db.toTables
      = some (storeResult pg db.toTables (newEvents db.toTables events),
          db.toTables.store pg (newEvents db.toTables events)) := by
  obtain ⟨rows, hrows⟩ := exists_rows h.gameEvents
  have hinserted := firstNew_rows db hrows hcanon hnodup
  have hsub : ∀ e ∈ newEvents db.toTables events, e ∈ events := fun e he =>
    firstNew_sublist.mem he
  have hstored : ∀ e ∈ newEvents db.toTables events, (gameEventRow pg e).isSome = true :=
    fun e he => h.gameEvents e (hsub e he)
  have hcanon' : ∀ e ∈ newEvents db.toTables events, e.eventId.toLowerCase = e.eventId :=
    fun e he => hcanon e (hsub e he)
  rw [storeBatch, mapM_eq_some_iff.mpr hrows]
  simp only [Option.bind_eq_bind, Option.bind_some, hinserted, map_eventId_rows hstored hcanon',
    candidates_eq hnodup rfl]
  set new := newEvents db.toTables events with hnew
  by_cases hempty : (new.filter fun e => e.purchase.isSome) = []
  · -- no purchase among the new events
    have hnone : newPurchases pg db.toTables new = [] := by
      rw [newPurchases, ← filterMap_candidates, hempty]
      rfl
    simp only [hempty, List.isEmpty_nil, if_pos, storeResult, Tables.store, hnone]
    simp
  · have hpurchases : ∀ e ∈ new.filter fun e => e.purchase.isSome,
        (boundPurchase pg e).isSome = true := fun e he =>
      h.purchases e (List.mem_filter.mp he).1 (List.mem_filter.mp he).2
    obtain ⟨prows, hprows⟩ := exists_rows hpurchases
    have hbound : new.filterMap (boundPurchase pg) = prows := by
      rw [← filterMap_candidates, filterMap_rows hprows]
    have hinsert := insertPurchases_candidates hprows hcanon' nodup_firstNew
      (fun e he => key_notMem_known he) hstored
    have hisEmpty : (new.filter fun e => e.purchase.isSome).isEmpty = false := by
      simpa using hempty
    rw [if_neg (by simp [hisEmpty]), mapM_eq_some_iff.mpr hprows,
      Option.bind_some, hinsert, Option.bind_some]
    simp only [Tables.store, storeResult, newPurchases, hbound, Tables.orderIds,
      List.drop_left]
    rfl

/-- A value outside its column aborts the transaction. -/
theorem storeBatch_of_not_storable (hcanon : ∀ e ∈ events, e.eventId.toLowerCase = e.eventId)
    (hnodup : (events.map NormalizedEvent.eventId).Nodup)
    (h : ¬Storable pg db.toTables events) : storeBatch pg events db.toTables = none := by
  rw [storeBatch]
  cases hmap : events.mapM (gameEventRow pg) with
  | none => rfl
  | some rows =>
    have hrows := mapM_eq_some_iff.mp hmap
    have hall : ∀ e ∈ events, (gameEventRow pg e).isSome = true := by
      intro e he
      cases hrow : gameEventRow pg e with
      | none => rw [mapM_eq_none_iff.mpr ⟨e, he, hrow⟩] at hmap; cases hmap
      | some row => rfl
    have hids : ((newEvents db.toTables events).filterMap (gameEventRow pg)).map
        GameEventRow.eventId = (newEvents db.toTables events).map NormalizedEvent.eventId :=
      map_eventId_rows (fun e he => hall e (firstNew_sublist.mem he))
        fun e he => hcanon e (firstNew_sublist.mem he)
    -- the rows of the events fit, so it is a purchase among the new ones that does not
    obtain ⟨e, he, hpurchase, hbound⟩ : ∃ e ∈ newEvents db.toTables events,
        e.purchase.isSome = true ∧ boundPurchase pg e = none := by
      by_contra hnone
      refine h ⟨hall, fun e he hpurchase => Option.isSome_iff_ne_none.mpr fun hbound => ?_⟩
      exact hnone ⟨e, he, hpurchase, hbound⟩
    have hmem : e ∈ (newEvents db.toTables events).filter fun e => e.purchase.isSome :=
      List.mem_filter.mpr ⟨he, hpurchase⟩
    simp only [Option.bind_eq_bind, Option.bind_some, firstNew_rows db hrows hcanon hnodup,
      hids, candidates_eq hnodup rfl]
    rw [if_neg (by simpa using fun hempty => List.ne_nil_of_mem hmem hempty),
      mapM_eq_none_iff.mpr ⟨e, hmem, hbound⟩]
    rfl

/-- The transaction keeps the constraints. -/
theorem schema_store {new : List NormalizedEvent}
    (hcanon : ∀ e ∈ new, e.eventId.toLowerCase = e.eventId)
    (hnodup : (new.map NormalizedEvent.eventId).Nodup)
    (hnew : ∀ e ∈ new, e.eventId ∉ db.eventIds)
    (hrows : ∀ e ∈ new, (gameEventRow pg e).isSome = true) :
    (db.toTables.store pg new).Schema := by
  have hevents : (db.toTables.store pg new).eventIds
      = db.eventIds ++ new.map NormalizedEvent.eventId := by
    rw [Tables.eventIds, Tables.store, List.map_append, map_eventId_rows hrows hcanon,
      Tables.eventIds]
  -- the purchases carry identifiers of the new events
  have hpids : ((newPurchases pg db.toTables new).map PurchaseRow.eventId).Sublist
      (new.map NormalizedEvent.eventId) := map_eventId_newPurchases db.toTables hcanon
  have hfresh : ∀ id ∈ new.map NormalizedEvent.eventId, id ∉ db.eventIds := by
    intro id hid
    obtain ⟨e, he, rfl⟩ := List.mem_map.mp hid
    exact hnew e he
  refine ⟨?_, ?_, ?_, ?_, ?_⟩
  · rw [hevents]
    refine List.nodup_append.mpr ⟨db.schema.eventIds_nodup, hnodup, ?_⟩
    rintro id hold _ hid rfl
    exact hfresh id hid hold
  · rw [Tables.store, List.map_append]
    refine List.nodup_append.mpr ⟨db.schema.purchaseIds_nodup, hnodup.sublist hpids, ?_⟩
    rintro id hold _ hid rfl
    obtain ⟨row, hrow, rfl⟩ := List.mem_map.mp hold
    exact hfresh _ (hpids.mem hid) (db.schema.foreignKey row hrow)
  · exact nodup_append_firstNew db.schema.orderIds_nodup
  · intro row hrow
    rw [hevents]
    rcases List.mem_append.mp hrow with hrow | hrow
    · exact List.mem_append_left _ (db.schema.foreignKey row hrow)
    · exact List.mem_append_right _ (hpids.mem (List.mem_map_of_mem hrow))
  · intro row hrow
    rcases List.mem_append.mp hrow with hrow | hrow
    · exact db.schema.checks row hrow
    · obtain ⟨e, he, hrow⟩ := List.mem_filterMap.mp (firstNew_sublist.mem hrow)
      exact (boundPurchase_spec hrow (hcanon e he)).2

end StoreBatch

end Ingestion
