/-
Transactions that store batches at the same time.

Any number of `storeBatch` transactions run row by row in any order; each may be aborted
between any two rows, by a deadlock, a timeout or an error.  A row waits while its key belongs
to a pending row of another transaction.

* `step?` — one row, the end of a statement, a commit or an abort; `none` where the
  transaction has to wait or cannot do this;
* `Running` — what holds of a transaction between its first row and its commit: the payment of
  a purchase that it has stored is still to be inserted, or its order has a row that the
  transaction sees;
* `concurrent_batches` — in every committed state each order has its one payment, and the
  results of the committed transactions count the rows.
-/
import LogStack.BatchRefinement
import LogStack.SharedTable
import LogStack.Simulation

open KeyedInsert
open Json (string? string?_eq_some)

namespace Ingestion

/-! ### Transactions -/

/-- The statement that a transaction executes, with the rows still to come. -/
inductive Statement where
  | insertEvents (todo : List NormalizedEvent)
  | insertPurchases (candidates todo : List NormalizedEvent)

/-- `storeBatch(events)` between two of its rows. -/
structure Transaction where
  events : List NormalizedEvent
  statement : Statement

structure Server where
  gameEvents : SharedTable ℕ GameEventRow
  purchases : SharedTable ℕ PurchaseRow
  transactions : ℕ → Option Transaction

namespace Server

def init : Server := ⟨.empty, .empty, fun _ => none⟩

/-- The rows that every transaction sees. -/
def committed (s : Server) : Tables := ⟨s.gameEvents.committed, s.purchases.committed⟩

def setTransaction (s : Server) (i : ℕ) (tx : Option Transaction) : Server :=
  { s with transactions := Function.update s.transactions i tx }

end Server

inductive Action where
  | start (batch : List Json)
  | row
  | next
  | abort

variable (L : Libraries) (pg : Postgres)

/-- One row of the second statement: a conflict on the primary key is an error, which only
leaves `abort`. -/
def insertPurchase? (t : SharedTable ℕ PurchaseRow) (i : ℕ) (row : PurchaseRow) :
    Option (SharedTable ℕ PurchaseRow) := do
  let t' ← t.insert? i PurchaseRow.orderId row
  if (t'.rows.map PurchaseRow.eventId).Nodup then some t' else none

/-- What transaction `i` can do, and the result it returns when it commits. -/
def step? (s : Server) (i : ℕ) : Action → Option (Option StoreBatchResult × Server)
  | .start batch =>
    match s.transactions i with
    | some _ => none
    | none => do
      let (accepted, _) ← validateEvents L 0 batch
      let unique := firstNew NormalizedEvent.eventId [] accepted
      if unique.isEmpty then none
      else some (none, s.setTransaction i (some ⟨unique, .insertEvents unique⟩))
  | .row =>
    match s.transactions i with
    | some ⟨events, .insertEvents (e :: todo)⟩ => do
      let gameEvents ← s.gameEvents.insert? i GameEventRow.eventId (← gameEventRow pg e)
      some (none, { s with gameEvents := gameEvents }.setTransaction i
        (some ⟨events, .insertEvents todo⟩))
    | some ⟨events, .insertPurchases candidates (e :: todo)⟩ => do
      let purchases ← insertPurchase? s.purchases i (← boundPurchase pg e)
      some (none, { s with purchases := purchases }.setTransaction i
        (some ⟨events, .insertPurchases candidates todo⟩))
    | _ => none
  | .next =>
    match s.transactions i with
    | some ⟨events, .insertEvents []⟩ =>
      let storedEventIds := ((s.gameEvents.own i).map GameEventRow.eventId).toFinset
      let candidates := events.filter fun e => e.purchase.isSome && e.eventId ∈ storedEventIds
      some (none, s.setTransaction i (some ⟨events, .insertPurchases candidates candidates⟩))
    | some ⟨_, .insertPurchases candidates []⟩ =>
      -- the foreign key is checked when the statement ends; then the transaction commits
      if ∀ p ∈ s.purchases.own i, p.eventId ∈ (s.gameEvents.visible i).map GameEventRow.eventId then
        some (some {
          storedEventIds := ((s.gameEvents.own i).map GameEventRow.eventId).toFinset
          purchaseStoredEventIds := ((s.purchases.own i).map PurchaseRow.eventId).toFinset
          purchaseCandidateCount := candidates.length },
          { s with
            gameEvents := s.gameEvents.commit i
            purchases := s.purchases.commit i }.setTransaction i none)
      else none
    | _ => none
  | .abort =>
    match s.transactions i with
    | none => none
    | some _ =>
      some (none, { s with
        gameEvents := s.gameEvents.abort i
        purchases := s.purchases.abort i }.setTransaction i none)

/-- Transactions take their steps in any order; one that waits is not enabled. -/
def machine : Simulation.Machine Server (ℕ × Action) (Option StoreBatchResult) where
  enabled a s := (step? L pg s a.1 a.2).isSome = true
  step a s := (step? L pg s a.1 a.2).getD (none, s)

/-! ### The payment of a stored purchase -/

/-- The order of a stored purchase: the `order_id` of its payload, as a column keeps it. -/
def GameEventRow.orderId? (row : GameEventRow) : Option JsString :=
  (string? (row.payload.get? (js "order_id"))).bind (varchar? 64)

/-- The row is a stored purchase of the order. -/
structure GameEventRow.Orders (row : GameEventRow) (orderId : JsString) : Prop where
  eventType : row.eventType = EventType.shopPurchase.name
  orderId : row.orderId? = some orderId

/-- The row of `purchases` comes from one of the stored purchases. -/
def Backed (gameEvents : List GameEventRow) (p : PurchaseRow) : Prop :=
  ∃ row ∈ gameEvents, row.eventId = p.eventId ∧ row.Orders p.orderId

/-- The order of the stored purchase has a row in `purchases`. -/
def Recorded (purchases : List PurchaseRow) (row : GameEventRow) : Prop :=
  ∃ p ∈ purchases, row.orderId? = some p.orderId

variable {L pg} {e : NormalizedEvent} {row : GameEventRow} {p : PurchaseRow}

theorem payload_of_gameEventRow (h : gameEventRow pg e = some row) :
    row.payload = e.payload := by
  simp only [gameEventRow, Option.bind_eq_bind, Option.bind_eq_some_iff, Option.pure_def,
    Option.some.injEq] at h
  obtain ⟨_, -, _, -, _, -, _, -, _, -, _, -, _, -, payload, hpayload, _, -, rfl⟩ := h
  rw [jsonb?] at hpayload
  split_ifs at hpayload
  exact (Option.some.inj hpayload).symm

/-- The order that is bound for an accepted event is that of its stored row. -/
theorem orders_of_bound {raw : Json} (h : acceptedEvent? L raw = some e)
    (hrow : gameEventRow pg e = some row) (hp : boundPurchase pg e = some p) :
    row.eventId = p.eventId ∧ row.Orders p.orderId := by
  obtain ⟨q, hq, hbound⟩ := Option.bind_eq_some_iff.mp hp
  obtain ⟨-, envelope, -, haccepts⟩ := validateEvent_eq_accepted.mp (acceptedEvent?_eq_some.mp h)
  refine ⟨(eventId_of_gameEventRow hrow).trans (purchaseRow_spec hbound).1.symm, ?_⟩
  cases haccepts with
  | plain hholds hnormal hother =>
    rw [(normalize_eq_some.mp hnormal).2.2.2.2.2.2.2.2.2] at hq
    cases hq
  | purchase hholds hnormal hshop hcopied hpayload hparts =>
    obtain rfl := Option.some.inj hq
    refine ⟨(eventType_of_gameEventRow hrow).trans (congrArg EventType.name hshop), ?_⟩
    -- the copy of the payload has no other `order_id` than the payload itself
    obtain ⟨value, hvalue, hcopy⟩ :=
      (L.copied _ _ hcopied).get? (string?_eq_some.mp (purchaseOf_eq_some.mp hparts).1)
    rw [GameEventRow.orderId?, payload_of_gameEventRow hrow, hvalue, hcopy.eq_str]
    exact (columns_of_purchaseRow hbound).1

/-! ### Moves -/

/-- What a transaction does in one step. -/
inductive Move (L : Libraries) (pg : Postgres) (s : Server) (i : ℕ) :
    Option StoreBatchResult → Server → Prop
  | start {batch : List Json} {accepted : List NormalizedEvent} {rejected : List RejectedEvent}
      (idle : s.transactions i = none)
      (valid : validateEvents L 0 batch = some (accepted, rejected)) :
      Move L pg s i none (s.setTransaction i (some ⟨firstNew NormalizedEvent.eventId [] accepted,
        .insertEvents (firstNew NormalizedEvent.eventId [] accepted)⟩))
  | insertEvent {events todo : List NormalizedEvent} {e : NormalizedEvent} {row : GameEventRow}
      {gameEvents : SharedTable ℕ GameEventRow}
      (running : s.transactions i = some ⟨events, .insertEvents (e :: todo)⟩)
      (bound : gameEventRow pg e = some row)
      (inserted : s.gameEvents.insert? i GameEventRow.eventId row = some gameEvents) :
      Move L pg s i none ({ s with gameEvents := gameEvents }.setTransaction i
        (some ⟨events, .insertEvents todo⟩))
  | candidates {events candidates : List NormalizedEvent}
      (running : s.transactions i = some ⟨events, .insertEvents []⟩)
      (mem : ∀ e, e ∈ candidates ↔ e ∈ events ∧ e.purchase.isSome = true ∧
        e.eventId ∈ (s.gameEvents.own i).map GameEventRow.eventId) :
      Move L pg s i none
        (s.setTransaction i (some ⟨events, .insertPurchases candidates candidates⟩))
  | insertPurchase {events candidates todo : List NormalizedEvent} {e : NormalizedEvent}
      {p : PurchaseRow} {purchases : SharedTable ℕ PurchaseRow}
      (running : s.transactions i = some ⟨events, .insertPurchases candidates (e :: todo)⟩)
      (bound : boundPurchase pg e = some p)
      (inserted : s.purchases.insert? i PurchaseRow.orderId p = some purchases)
      (primaryKey : purchases.Unique PurchaseRow.eventId) :
      Move L pg s i none ({ s with purchases := purchases }.setTransaction i
        (some ⟨events, .insertPurchases candidates todo⟩))
  | commit {events candidates : List NormalizedEvent} {result : StoreBatchResult}
      (running : s.transactions i = some ⟨events, .insertPurchases candidates []⟩)
      (stored : result.storedEventIds = ((s.gameEvents.own i).map GameEventRow.eventId).toFinset)
      (paid : result.purchaseStoredEventIds
        = ((s.purchases.own i).map PurchaseRow.eventId).toFinset) :
      Move L pg s i (some result) ({ s with
        gameEvents := s.gameEvents.commit i
        purchases := s.purchases.commit i }.setTransaction i none)
  | abort :
      Move L pg s i none ({ s with
        gameEvents := s.gameEvents.abort i
        purchases := s.purchases.abort i }.setTransaction i none)

variable {s s' : Server} {i j : ℕ} {o : Option StoreBatchResult} {events : List NormalizedEvent}

theorem move_of_step? {action : Action} (h : step? L pg s i action = some (o, s')) :
    Move L pg s i o s' := by
  cases action with
  | start batch =>
    simp only [step?] at h
    split at h
    · cases h
    · rename_i hidle
      obtain ⟨⟨accepted, rejected⟩, hvalid, h⟩ := Option.bind_eq_some_iff.mp h
      split_ifs at h
      cases h
      exact .start hidle hvalid
  | row =>
    simp only [step?] at h
    split at h
    · rename_i hrunning
      obtain ⟨row, hrow, h⟩ := Option.bind_eq_some_iff.mp h
      obtain ⟨gameEvents, hinsert, h⟩ := Option.bind_eq_some_iff.mp h
      cases h
      exact .insertEvent hrunning hrow hinsert
    · rename_i hrunning
      obtain ⟨p, hp, h⟩ := Option.bind_eq_some_iff.mp h
      obtain ⟨purchases, hpurchases, h⟩ := Option.bind_eq_some_iff.mp h
      cases h
      obtain ⟨purchases', hinsert, hprimary⟩ := Option.bind_eq_some_iff.mp hpurchases
      -- the primary key of the purchases is checked after the insert
      split_ifs at hprimary with hnodup
      obtain rfl := Option.some.inj hprimary
      exact .insertPurchase hrunning hp hinsert hnodup
    · cases h
  | next =>
    simp only [step?] at h
    split at h
    · rename_i hrunning
      cases h
      refine .candidates hrunning fun e => ?_
      rw [List.mem_filter, Bool.and_eq_true, decide_eq_true_iff, List.mem_toFinset]
    · rename_i hrunning
      split_ifs at h
      cases h
      exact .commit hrunning rfl rfl
    · cases h
  | abort =>
    simp only [step?] at h
    split at h
    · cases h
    · cases h
      exact .abort

/-! ### Between two moves -/

/-- How far a transaction is that has stored some events: the first statement has still to
insert events of its own; the second one has still to insert the payment of each stored
purchase whose order has no row that the transaction sees. -/
inductive Progress (pg : Postgres) (events : List NormalizedEvent) (stored : List GameEventRow)
    (inserted visible : List PurchaseRow) : Statement → Prop
  | insertEvents {todo : List NormalizedEvent} (mem : ∀ e ∈ todo, e ∈ events)
      (none : inserted = []) : Progress pg events stored inserted visible (.insertEvents todo)
  | insertPurchases {candidates todo : List NormalizedEvent}
      (mem : ∀ e ∈ todo, e ∈ events)
      (due : ∀ e ∈ todo, ∃ row ∈ stored, gameEventRow pg e = some row)
      (paid : ∀ row ∈ stored, row.eventType = EventType.shopPurchase.name →
        (∃ e ∈ todo, gameEventRow pg e = some row) ∨ Recorded visible row)
      (backed : ∀ p ∈ inserted, Backed stored p)
      (checks : ∀ p ∈ inserted, 1 ≤ p.quantity ∧ 0 ≤ p.amountMinor) :
      Progress pg events stored inserted visible (.insertPurchases candidates todo)

/-- What holds of a running transaction. -/
structure Running (L : Libraries) (pg : Postgres) (s : Server) (i : ℕ) (tx : Transaction) :
    Prop where
  accepted : ∀ e ∈ tx.events, ∃ raw, acceptedEvent? L raw = some e
  nodup : (tx.events.map NormalizedEvent.eventId).Nodup
  stored : ∀ row ∈ s.gameEvents.own i, ∃ e ∈ tx.events, gameEventRow pg e = some row
  progress : Progress pg tx.events (s.gameEvents.own i) (s.purchases.own i)
    (s.purchases.visible i) tx.statement

/-- A number that no transaction uses owns no rows. -/
structure Idle (s : Server) (i : ℕ) : Prop where
  gameEvents : s.gameEvents.own i = []
  purchases : s.purchases.own i = []

def Between (L : Libraries) (pg : Postgres) (s : Server) (i : ℕ) : Option Transaction → Prop
  | none => Idle s i
  | some tx => Running L pg s i tx

/-- What a move of transaction `i` leaves to the others. -/
structure Frame (s s' : Server) (i : ℕ) : Prop where
  gameEvents : ∀ j, j ≠ i → s'.gameEvents.own j = s.gameEvents.own j
  purchases : ∀ j, j ≠ i → s'.purchases.own j = s.purchases.own j
  committed : ∀ p ∈ s.purchases.committed, p ∈ s'.purchases.committed

theorem Frame.refl : Frame s s i := ⟨fun _ _ => rfl, fun _ _ => rfl, fun _ hp => hp⟩

theorem Recorded.mono {ps ps' : List PurchaseRow} (h : Recorded ps row) (hsub : ps ⊆ ps') :
    Recorded ps' row := by
  obtain ⟨p, hp, horder⟩ := h
  exact ⟨p, hsub hp, horder⟩

theorem Backed.mono {rows rows' : List GameEventRow} (h : Backed rows p) (hsub : rows ⊆ rows') :
    Backed rows' p := by
  obtain ⟨row, hrow, hp⟩ := h
  exact ⟨row, hsub hrow, hp⟩

theorem Progress.mono {stored : List GameEventRow} {inserted visible visible' : List PurchaseRow}
    {statement : Statement} (h : Progress pg events stored inserted visible statement)
    (hsub : visible ⊆ visible') : Progress pg events stored inserted visible' statement := by
  cases h with
  | insertEvents mem none => exact .insertEvents mem none
  | insertPurchases mem due paid backed checks =>
    exact .insertPurchases mem due
      (fun row hrow hshop => (paid row hrow hshop).imp_right fun h => h.mono hsub) backed checks

/-- The others have lost nothing: what they saw they still see. -/
theorem Between.frame {tx : Option Transaction} (h : Between L pg s j tx) (hf : Frame s s' i)
    (hj : j ≠ i) : Between L pg s' j tx := by
  cases tx with
  | none => exact ⟨(hf.gameEvents j hj).trans h.gameEvents, (hf.purchases j hj).trans h.purchases⟩
  | some tx =>
    refine ⟨h.accepted, h.nodup, ?_, ?_⟩
    · rw [hf.gameEvents j hj]
      exact h.stored
    · rw [hf.gameEvents j hj, SharedTable.visible, hf.purchases j hj]
      refine h.progress.mono fun p hp => ?_
      exact List.mem_append.mpr ((List.mem_append.mp hp).imp_left (hf.committed p))

/-- It matters which rows are there, not what the transactions do next. -/
theorem Between.setTransaction {tx tx' : Option Transaction} (h : Between L pg s j tx) :
    Between L pg (s.setTransaction i tx') j tx := by
  cases tx with
  | none => exact ⟨h.gameEvents, h.purchases⟩
  | some tx => exact ⟨h.accepted, h.nodup, h.stored, h.progress⟩

/-- One transaction has moved. -/
theorem between_setTransaction {tx : Option Transaction}
    (h : ∀ j, Between L pg s j (s.transactions j)) (hf : Frame s s' i)
    (htx : s'.transactions = s.transactions) (hi : Between L pg s' i tx) :
    ∀ j, Between L pg (s'.setTransaction i tx) j ((s'.setTransaction i tx).transactions j) := by
  intro j
  refine Between.setTransaction ?_
  show Between L pg s' j (Function.update s'.transactions i tx j)
  rw [htx]
  by_cases hj : j = i
  · subst hj
    rwa [Function.update_self]
  · rw [Function.update_of_ne hj]
    exact (h j).frame hf hj

theorem Running.of_transactions {tx : Transaction} (h : ∀ j, Between L pg s j (s.transactions j))
    (hrunning : s.transactions i = some tx) : Running L pg s i tx := by
  have hi := h i
  rwa [hrunning] at hi

section Moves

variable {batch : List Json} {accepted : List NormalizedEvent} {rejected : List RejectedEvent}
  {candidates todo : List NormalizedEvent} {gameEvents : SharedTable ℕ GameEventRow}
  {purchases : SharedTable ℕ PurchaseRow}

theorem Running.eventId_eq {tx : Transaction} (h : Running L pg s i tx) (he : e ∈ tx.events)
    (hrow : gameEventRow pg e = some row) : row.eventId = e.eventId := by
  obtain ⟨raw, hraw⟩ := h.accepted e he
  exact (eventId_of_gameEventRow hrow).trans (canonical_of_acceptedEvent? hraw)

theorem running_start (hidle : Idle s i)
    (hvalid : validateEvents L 0 batch = some (accepted, rejected)) :
    Running L pg s i ⟨firstNew NormalizedEvent.eventId [] accepted,
      .insertEvents (firstNew NormalizedEvent.eventId [] accepted)⟩ := by
  refine ⟨fun e he => ?_, nodup_firstNew, ?_, .insertEvents (fun e he => he) hidle.purchases⟩
  · have hmem := firstNew_sublist.mem he
    rw [accepted_eq hvalid] at hmem
    obtain ⟨raw, -, hraw⟩ := List.mem_filterMap.mp hmem
    exact ⟨raw, hraw⟩
  · rw [hidle.gameEvents]
    exact fun row hrow => absurd hrow List.not_mem_nil

theorem running_insertEvent (h : Running L pg s i ⟨events, .insertEvents (e :: todo)⟩)
    (hrow : gameEventRow pg e = some row)
    (hinsert : s.gameEvents.insert? i GameEventRow.eventId row = some gameEvents) :
    Running L pg { s with gameEvents := gameEvents } i ⟨events, .insertEvents todo⟩ := by
  obtain ⟨haccepted, hnodup, hstored, hmem, hnone⟩ := h
  have hprogress : Progress pg events (gameEvents.own i) (s.purchases.own i)
      (s.purchases.visible i) (.insertEvents todo) :=
    .insertEvents (fun e' he' => hmem e' (List.mem_cons_of_mem _ he')) hnone
  refine ⟨haccepted, hnodup, ?_, hprogress⟩
  obtain ⟨rfl, -⟩ | ⟨rfl, -⟩ := SharedTable.insert?_eq_some hinsert
  · exact hstored
  · rw [SharedTable.own_insert_self]
    intro row' hrow'
    rcases List.mem_append.mp hrow' with hrow' | hrow'
    · exact hstored row' hrow'
    · obtain rfl := List.mem_singleton.mp hrow'
      exact ⟨e, hmem e List.mem_cons_self, hrow⟩

/-- The second statement starts: every purchase that has been stored is a candidate. -/
theorem running_candidates (h : Running L pg s i ⟨events, .insertEvents []⟩)
    (hmem : ∀ e, e ∈ candidates ↔ e ∈ events ∧ e.purchase.isSome = true ∧
      e.eventId ∈ (s.gameEvents.own i).map GameEventRow.eventId) :
    Running L pg s i ⟨events, .insertPurchases candidates candidates⟩ := by
  have hid : ∀ e ∈ events, ∀ row, gameEventRow pg e = some row → row.eventId = e.eventId :=
    fun e he row hrow => h.eventId_eq he hrow
  obtain ⟨haccepted, hnodup, hstored, -, hnone⟩ := h
  refine ⟨haccepted, hnodup, hstored, .insertPurchases (fun e he => ((hmem e).mp he).1) ?_ ?_ ?_ ?_⟩
  · intro e he
    obtain ⟨hevent, -, hown⟩ := (hmem e).mp he
    obtain ⟨row, hrow, heq⟩ := List.mem_map.mp hown
    obtain ⟨e', he', hrow'⟩ := hstored row hrow
    -- ids are distinct, so the row with the id of `e` is the row of `e`
    obtain rfl : e' = e := List.inj_on_of_nodup_map hnodup he' hevent
      ((hid e' he' row hrow').symm.trans heq)
    exact ⟨row, hrow, hrow'⟩
  · intro row hrow hshop
    obtain ⟨e, he, hrow'⟩ := hstored row hrow
    refine .inl ⟨e, (hmem e).mpr ⟨he, ?_, ?_⟩, hrow'⟩
    · obtain ⟨raw, hraw⟩ := haccepted e he
      rw [(checked_of_accepted (acceptedEvent?_eq_some.mp hraw)).1.purchase]
      exact EventType.name_injective ((eventType_of_gameEventRow hrow').symm.trans hshop)
    · rw [← hid e he row hrow']
      exact List.mem_map_of_mem hrow
  · rw [hnone]
    exact fun p hp => absurd hp List.not_mem_nil
  · rw [hnone]
    exact fun p hp => absurd hp List.not_mem_nil

/-- One payment: inserted, or its order has a row already. -/
theorem running_insertPurchase
    (h : Running L pg s i ⟨events, .insertPurchases candidates (e :: todo)⟩)
    (hp : boundPurchase pg e = some p)
    (hinsert : s.purchases.insert? i PurchaseRow.orderId p = some purchases) :
    Running L pg { s with purchases := purchases } i
      ⟨events, .insertPurchases candidates todo⟩ := by
  obtain ⟨haccepted, hnodup, hstored, hprogress⟩ := h
  obtain ⟨⟩ | ⟨hmem, hdue, hpaid, hbacked, hchecks⟩ := hprogress
  obtain ⟨raw, hraw⟩ := haccepted e (hmem e List.mem_cons_self)
  have hmem' : ∀ e' ∈ todo, e' ∈ events := fun e' he' => hmem e' (List.mem_cons_of_mem _ he')
  have hdue' : ∀ e' ∈ todo, ∃ row ∈ s.gameEvents.own i, gameEventRow pg e' = some row :=
    fun e' he' => hdue e' (List.mem_cons_of_mem _ he')
  -- whatever happens to the row, its order is visible from now on
  have hpaid' : ∀ visible : List PurchaseRow, s.purchases.visible i ⊆ visible →
      p.orderId ∈ visible.map PurchaseRow.orderId → ∀ row ∈ s.gameEvents.own i,
        row.eventType = EventType.shopPurchase.name →
        (∃ e' ∈ todo, gameEventRow pg e' = some row) ∨ Recorded visible row := by
    intro visible hsub hvisible row hrow hshop
    rcases hpaid row hrow hshop with ⟨e', he', hrow'⟩ | hrecorded
    · rcases List.mem_cons.mp he' with rfl | he'
      · obtain ⟨p', hp', heq⟩ := List.mem_map.mp hvisible
        exact .inr ⟨p', hp', heq ▸ (orders_of_bound hraw hrow' hp).2.orderId⟩
      · exact .inl ⟨e', he', hrow'⟩
    · exact .inr (hrecorded.mono hsub)
  refine ⟨haccepted, hnodup, hstored, ?_⟩
  obtain ⟨rfl, hvisible⟩ | ⟨rfl, -⟩ := SharedTable.insert?_eq_some hinsert
  · exact .insertPurchases hmem' hdue' (hpaid' _ (List.Subset.refl _) hvisible) hbacked hchecks
  · have hvisible : (s.purchases.insert i p).visible i = s.purchases.visible i ++ [p] := by
      rw [SharedTable.visible, SharedTable.own_insert_self, SharedTable.committed_insert,
        ← List.append_assoc, SharedTable.visible]
    have hpaid'' := hpaid' (s.purchases.visible i ++ [p]) (List.subset_append_left _ _)
      (by simp)
    refine .insertPurchases hmem' hdue' (hvisible ▸ hpaid'') ?_ ?_
    · rw [SharedTable.own_insert_self]
      intro p' hp'
      rcases List.mem_append.mp hp' with hp' | hp'
      · exact hbacked p' hp'
      · obtain rfl := List.mem_singleton.mp hp'
        obtain ⟨row, hrow, hbound⟩ := hdue e List.mem_cons_self
        exact ⟨row, hrow, orders_of_bound hraw hbound hp⟩
    · rw [SharedTable.own_insert_self]
      intro p' hp'
      rcases List.mem_append.mp hp' with hp' | hp'
      · exact hchecks p' hp'
      · obtain rfl := List.mem_singleton.mp hp'
        obtain ⟨q, -, hbound⟩ := Option.bind_eq_some_iff.mp hp
        exact (purchaseRow_spec hbound).2

end Moves

/-! ### Committed states -/

/-- The committed tables, and the results that the committed transactions have returned. -/
structure Ledger extends Tables where
  results : List StoreBatchResult

def Ledger.empty : Ledger := ⟨⟨[], []⟩, []⟩

/-- Every payment has its purchase, every purchase its payment, and the results count both. -/
structure Balanced (a : Ledger) : Prop where
  backed : ∀ p ∈ a.purchases, Backed a.gameEvents p
  recorded : ∀ row ∈ a.gameEvents, row.eventType = EventType.shopPurchase.name →
    Recorded a.purchases row
  checks : ∀ p ∈ a.purchases, 1 ≤ p.quantity ∧ 0 ≤ p.amountMinor
  stored : (a.results.map StoreBatchResult.storedCount).sum = a.gameEvents.length
  paid : (a.results.map fun r => (r.purchaseCandidateCount : ℤ) - r.orderDuplicateCount).sum
    = a.purchases.length

structure Inv (L : Libraries) (pg : Postgres) (s : Server) (a : Ledger) : Prop where
  tables : a.toTables = s.committed
  eventIds : s.gameEvents.Unique GameEventRow.eventId
  purchaseIds : s.purchases.Unique PurchaseRow.eventId
  orderIds : s.purchases.Unique PurchaseRow.orderId
  transactions : ∀ i, Between L pg s i (s.transactions i)
  balanced : Balanced a

variable {a : Ledger}

theorem inv_init : Inv L pg Server.init Ledger.empty :=
  ⟨rfl, SharedTable.unique_empty, SharedTable.unique_empty, SharedTable.unique_empty,
    fun _ => ⟨rfl, rfl⟩, by simp [Ledger.empty], by simp [Ledger.empty], by simp [Ledger.empty],
    rfl, rfl⟩

/-- What a commit adds balances: the transaction has paid for each purchase it has stored. -/
theorem Inv.commit {candidates : List NormalizedEvent} {result : StoreBatchResult}
    (h : Inv L pg s a) (hrunning : s.transactions i = some ⟨events, .insertPurchases candidates []⟩)
    (hstored : result.storedEventIds
      = ((s.gameEvents.own i).map GameEventRow.eventId).toFinset)
    (hpaid : result.purchaseStoredEventIds
      = ((s.purchases.own i).map PurchaseRow.eventId).toFinset) :
    Balanced ⟨⟨s.gameEvents.visible i, s.purchases.visible i⟩, a.results ++ [result]⟩ := by
  obtain ⟨-, -, -, hprogress⟩ := Running.of_transactions h.transactions hrunning
  obtain ⟨⟩ | ⟨-, -, hrecorded, hbacked, hchecks⟩ := hprogress
  have hgameEvents : a.gameEvents = s.gameEvents.committed := congrArg Tables.gameEvents h.tables
  have hpurchases : a.purchases = s.purchases.committed := congrArg Tables.purchases h.tables
  refine ⟨fun p hp => ?_, fun row hrow hshop => ?_, fun p hp => ?_, ?_, ?_⟩
  · rcases List.mem_append.mp hp with hp | hp
    · exact (h.balanced.backed p (hpurchases ▸ hp)).mono
        (hgameEvents ▸ List.subset_append_left _ _)
    · exact (hbacked p hp).mono (List.subset_append_right _ _)
  · rcases List.mem_append.mp hrow with hrow | hrow
    · exact (h.balanced.recorded row (hgameEvents ▸ hrow) hshop).mono
        (hpurchases ▸ List.subset_append_left _ _)
    · -- no candidate is left to be inserted, so each order is there already
      rcases hrecorded row hrow hshop with ⟨e, he, -⟩ | hrecorded
      · exact absurd he List.not_mem_nil
      · exact hrecorded
  · rcases List.mem_append.mp hp with hp | hp
    · exact h.balanced.checks p (hpurchases ▸ hp)
    · exact hchecks p hp
  · have hcard : result.storedCount = (s.gameEvents.own i).length := by
      rw [StoreBatchResult.storedCount, hstored, List.toFinset_card_of_nodup h.eventIds.own,
        List.length_map]
    simp only [List.map_append, List.sum_append, List.map_cons, List.map_nil, List.sum_cons,
      List.sum_nil, h.balanced.stored, hcard, hgameEvents, SharedTable.visible,
      List.length_append]
    omega
  · have hcard : result.purchaseStoredEventIds.card = (s.purchases.own i).length := by
      rw [hpaid, List.toFinset_card_of_nodup h.purchaseIds.own, List.length_map]
    have hnew : (result.purchaseCandidateCount : ℤ) - result.orderDuplicateCount
        = (s.purchases.own i).length := by
      rw [StoreBatchResult.orderDuplicateCount, hcard]
      omega
    rw [List.map_append, List.sum_append, h.balanced.paid, List.map_singleton,
      List.sum_singleton, hnew, hpurchases]
    simp only [SharedTable.visible, List.length_append]
    omega

/-- What a move does to the committed tables: rows are added and no row changes; a commit, and
nothing else, returns a result. -/
structure Grows (o : Option StoreBatchResult) (a a' : Ledger) : Prop where
  gameEvents : a.gameEvents <+: a'.gameEvents
  purchases : a.purchases <+: a'.purchases
  results : a'.results = a.results ++ o.toList

theorem Grows.refl : Grows none a a :=
  ⟨List.prefix_rfl, List.prefix_rfl, (List.append_nil _).symm⟩

/-- **Step.** Whatever a transaction does, the committed tables stay balanced. -/
theorem inv_of_move (h : Inv L pg s a) (hmove : Move L pg s i o s') :
    ∃ a', Grows o a a' ∧ Inv L pg s' a' := by
  cases hmove with
  | start hidle hvalid =>
    have hi := h.transactions i
    rw [hidle] at hi
    refine ⟨a, .refl, h.tables, h.eventIds, h.purchaseIds, h.orderIds, ?_, h.balanced⟩
    exact between_setTransaction h.transactions .refl rfl (running_start hi hvalid)
  | insertEvent hrunning hrow hinsert =>
    have hi := running_insertEvent (.of_transactions h.transactions hrunning) hrow hinsert
    -- rows of a running transaction are not among the committed ones
    obtain ⟨hcommitted, hown⟩ := SharedTable.frame_insert? hinsert
    refine ⟨a, .refl, h.tables.trans ?_, h.eventIds.insert? hinsert, h.purchaseIds, h.orderIds,
      ?_, h.balanced⟩
    · exact congrArg (Tables.mk · _) hcommitted.symm
    · exact between_setTransaction h.transactions ⟨hown, fun _ _ => rfl, fun _ hp => hp⟩ rfl hi
  | candidates hrunning hmem =>
    have hi := running_candidates (.of_transactions h.transactions hrunning) hmem
    refine ⟨a, .refl, h.tables, h.eventIds, h.purchaseIds, h.orderIds, ?_, h.balanced⟩
    exact between_setTransaction h.transactions .refl rfl hi
  | insertPurchase hrunning hp hinsert hprimary =>
    have hi := running_insertPurchase (.of_transactions h.transactions hrunning) hp hinsert
    obtain ⟨hcommitted, hown⟩ := SharedTable.frame_insert? hinsert
    refine ⟨a, .refl, h.tables.trans ?_, h.eventIds, hprimary, h.orderIds.insert? hinsert,
      ?_, h.balanced⟩
    · exact congrArg (Tables.mk _) hcommitted.symm
    · exact between_setTransaction h.transactions
        ⟨fun _ _ => rfl, hown, fun _ hp => hcommitted.symm ▸ hp⟩ rfl hi
  | @commit events candidates result hrunning hstored hpaid =>
    refine ⟨⟨⟨s.gameEvents.visible i, s.purchases.visible i⟩, a.results ++ [result]⟩,
      ⟨?_, ?_, rfl⟩, rfl, h.eventIds.commit, h.purchaseIds.commit, h.orderIds.commit, ?_,
      h.commit hrunning hstored hpaid⟩
    · rw [h.tables]
      exact List.prefix_append _ _
    · rw [h.tables]
      exact List.prefix_append _ _
    · exact between_setTransaction h.transactions
        ⟨fun _ hj => SharedTable.own_commit_of_ne hj, fun _ hj => SharedTable.own_commit_of_ne hj,
          fun _ hp => List.mem_append_left _ hp⟩ rfl
        ⟨SharedTable.own_commit_self, SharedTable.own_commit_self⟩
  | abort =>
    refine ⟨a, .refl, h.tables, h.eventIds.abort, h.purchaseIds.abort, h.orderIds.abort, ?_,
      h.balanced⟩
    exact between_setTransaction h.transactions
      ⟨fun _ hj => SharedTable.own_abort_of_ne hj, fun _ hj => SharedTable.own_abort_of_ne hj,
        fun _ hp => hp⟩ rfl
      ⟨SharedTable.own_abort_self, SharedTable.own_abort_self⟩

/-- What holds of the committed tables, whichever transactions are under way. -/
structure Consistent (s : Server) (a : Ledger) : Prop where
  tables : a.toTables = s.committed
  schema : a.toTables.Schema
  backed : ∀ p ∈ a.purchases, ∃ row ∈ a.gameEvents, row.eventId = p.eventId ∧ row.Orders p.orderId
  recorded : ∀ row ∈ a.gameEvents, row.eventType = EventType.shopPurchase.name →
    ∃ orderId, row.orderId? = some orderId ∧ a.orderIds.count orderId = 1
  stored : (a.results.map StoreBatchResult.storedCount).sum = a.gameEvents.length
  paid : (a.results.map fun r => (r.purchaseCandidateCount : ℤ) - r.orderDuplicateCount).sum
    = a.purchases.length

theorem Inv.consistent (h : Inv L pg s a) : Consistent s a := by
  have hgameEvents : a.gameEvents = s.gameEvents.committed := congrArg Tables.gameEvents h.tables
  have hpurchases : a.purchases = s.purchases.committed := congrArg Tables.purchases h.tables
  have horders : a.orderIds.Nodup := by
    rw [Tables.orderIds, hpurchases]
    exact h.orderIds.committed
  refine ⟨h.tables, ⟨?_, ?_, horders, fun p hp => ?_, h.balanced.checks⟩, h.balanced.backed,
    fun row hrow hshop => ?_, h.balanced.stored, h.balanced.paid⟩
  · rw [Tables.eventIds, hgameEvents]
    exact h.eventIds.committed
  · rw [hpurchases]
    exact h.purchaseIds.committed
  · obtain ⟨row, hrow, hid, -⟩ := h.balanced.backed p hp
    exact hid ▸ List.mem_map_of_mem hrow
  · obtain ⟨p, hp, horder⟩ := h.balanced.recorded row hrow hshop
    exact ⟨p.orderId, horder, List.count_eq_one_of_mem horders (List.mem_map_of_mem hp)⟩

/-- **Concurrent batches neither lose nor double a payment.** Along every run of transactions
that insert, wait, commit and abort in any order, from empty tables: a committed row stays,
event ids and orders are unique, each row of `purchases` belongs to a stored purchase of its
order, each order of a stored purchase has one row, and the counts of the committed
transactions add up to the tables. -/
theorem concurrent_batches (L : Libraries) (pg : Postgres) (moves : List (ℕ × Action)) :
    Simulation.Along (machine L pg) (fun _ o _ a a' => Grows o a a') Consistent moves
      Server.init Ledger.empty := by
  refine Simulation.along_of_invariant (Inv L pg) (fun s a h => h.consistent) ?_ inv_init
  intro move s a h henabled
  obtain ⟨⟨o, s'⟩, hstep⟩ := Option.isSome_iff_exists.mp henabled
  have heq : (machine L pg).step move s = (o, s') := by
    simp only [machine, hstep, Option.getD_some]
  rw [heq]
  exact inv_of_move h (move_of_step? hstep)

end Ingestion
