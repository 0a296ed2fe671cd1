/-
The receiver's verdict on an event.

An event comes in one batch after another until an answer settles it.  Whatever the batch, the
receiver makes the same of it: it accepts the event or rejects it, and a batch that is too long
for the receiver even with this event alone never comes in.

* `normalized?`, `Doomed` — the verdict;
* `rowId`, `RowOf` — the id and the rows of an event in the tables;
* `Truthful` — what an answer to a batch says about the verdicts on its events;
* `truthful_receive` — the receiver's answers do so.
-/
import LogStack.AckAgreement
import LogStack.RequestBody

open KeyedInsert Ingestion Sender
open Json (string? string?_eq_some array? array?_eq_some)

namespace Pipeline

/-! ### Verdicts -/

section Verdict

variable (J : JsonText) (L : Libraries) (pg : Postgres)

/-- What the receiver makes of an event. -/
def normalized? (e : Event) : Option NormalizedEvent := acceptedEvent? L (L.copyOf e.value)

/-- The event is rejected, or does not even come in. -/
def Doomed (e : Event) : Prop :=
  normalized? L e = none ∨ MAX_BODY_BYTES < batchBodyByteLength J [e.value]

/-- An event id as the tables hold it: a UUID in lower case. -/
def canonicalId (id : JsString) : JsString := (uuid? id).getD id

def rowId (e : Event) : JsString := canonicalId e.id

/-- The row has been made from the event. -/
def RowOf (e : Event) (row : GameEventRow) : Prop :=
  ∃ n, normalized? L e = some n ∧ gameEventRow pg n = some row

variable {J L pg} {e : Event} {n : NormalizedEvent} {row : GameEventRow}

/-- An accepted event has the id that it was recorded with. -/
theorem eventId_of_normalized (h : normalized? L e = some n) : n.eventId = rowId e := by
  obtain ⟨-, envelope, hcopy, haccepts⟩ :=
    validateEvent_eq_accepted.mp (acceptedEvent?_eq_some.mp h)
  have hown : eventEnvelopeDto.holds L.toStringChecks envelope ∧
      (string? (envelope.get? (js "event_id"))).map JsString.toLowerCase = some n.eventId := by
    cases haccepts with
    | plain holds normal other => exact ⟨holds, (normalize_eq_some.mp normal).1⟩
    | purchase holds normal shop copied payloadHolds parts =>
      exact ⟨holds, (normalize_eq_some.mp normal).1⟩
  obtain ⟨hholds, hid⟩ := hown
  obtain ⟨s, hs, hlower⟩ := Option.map_eq_some_iff.mp hid
  -- the second decorated field of the envelope is the id
  have huuid : L.isUUID s = true := by
    have hcheck := hholds _ (List.mem_cons_of_mem _ List.mem_cons_self) .isUUID List.mem_cons_self
    simpa only [Constraint.holds, hs, Option.any_some] using hcheck
  -- the id is copied twice, with the batch and with the event
  obtain ⟨inner, hinner, hcopied⟩ := (L.copied _ _ hcopy).get? (string?_eq_some.mp hs)
  obtain ⟨outer, houter, hcopied'⟩ := (L.copied_copyOf e.value).get? hinner
  rw [hcopied.eq_str] at hcopied'
  have hsame : e.id = s := eventId_of_get? (hcopied'.eq_str ▸ houter)
  rw [rowId, hsame, canonicalId, uuid?, if_pos (L.isUuidText_of_isUUID s huuid), Option.getD_some,
    hlower]

theorem RowOf.eventId (h : RowOf L pg e row) : row.eventId = rowId e := by
  obtain ⟨n, hn, hrow⟩ := h
  rw [eventId_of_gameEventRow hrow, canonical_of_acceptedEvent? hn, eventId_of_normalized hn]

end Verdict

/-! ### Rejections -/

section Rejections

variable {L : Libraries} {raws : List Json} {index : ℕ} {accepted : List NormalizedEvent}
  {rejected : List RejectedEvent}

/-- Positions are counted from the first event. -/
theorem le_index_of_rejected (h : validateEvents L index raws = some (accepted, rejected)) :
    ∀ i ∈ rejected.map RejectedEvent.index, index ≤ i := by
  induction raws generalizing index accepted rejected with
  | nil =>
    intro i hi
    simp only [validateEvents, Option.some.injEq, Prod.mk.injEq] at h
    rw [← h.2] at hi
    exact absurd hi List.not_mem_nil
  | cons raw raws ih =>
    intro i hi
    obtain ⟨result, accepted', rejected', -, hrest, h⟩ := validateEvents_cons.mp h
    have hlater : ∀ i ∈ rejected'.map RejectedEvent.index, index ≤ i := fun i hi =>
      (Nat.le_succ index).trans (ih hrest i hi)
    cases result with
    | accepted event => exact hlater i (h.2 ▸ hi)
    | rejected eventId code message =>
      rw [h.2, List.map_cons] at hi
      rcases List.mem_cons.mp hi with rfl | hi
      · exact le_rfl
      · exact hlater i hi

/-- The positions in the rejections are those of the events that are not accepted. By induction
on the events. -/
theorem index_mem_rejected (h : validateEvents L index raws = some (accepted, rejected)) {k : ℕ}
    {raw : Json} (hraw : raws[k]? = some raw) :
    index + k ∈ rejected.map RejectedEvent.index ↔ acceptedEvent? L raw = none := by
  induction raws generalizing index accepted rejected k with
  | nil => simp at hraw
  | cons first raws ih =>
    obtain ⟨result, accepted', rejected', hresult, hrest, h⟩ := validateEvents_cons.mp h
    cases k with
    | zero =>
      obtain rfl : first = raw := by simpa using hraw
      cases result with
      | accepted event =>
        obtain ⟨-, rfl⟩ := h
        have hlater : index ∉ rejected.map RejectedEvent.index := fun hmem =>
          absurd (le_index_of_rejected hrest index hmem) (by omega)
        simp [hlater, acceptedEvent?_eq_some.mpr hresult]
      | rejected eventId code message =>
        obtain ⟨-, rfl⟩ := h
        simp [acceptedEvent?, hresult]
    | succ k =>
      have hraw' : raws[k]? = some raw := by simpa using hraw
      have hih := ih hrest hraw'
      rw [show index + 1 + k = index + (k + 1) by omega] at hih
      refine Iff.trans ?_ hih
      cases result with
      | accepted event =>
        obtain ⟨-, rfl⟩ := h
        exact Iff.rfl
      | rejected eventId code message =>
        obtain ⟨-, rfl⟩ := h
        rw [List.map_cons, List.mem_cons]
        exact or_iff_right (by simp only; omega)

end Rejections

/-! ### What a batch leaves in the tables -/

section Stored

variable {L : Libraries} {pg : Postgres} {db : Database} {reachable : Bool} {raws : List Json}
  {accepted : List NormalizedEvent} {rejected : List RejectedEvent} {row : GameEventRow}
  {n : NormalizedEvent}

theorem mem_gameEvents_store (db : Tables) (new : List NormalizedEvent)
    (h : row ∈ (db.store pg new).gameEvents) :
    row ∈ db.gameEvents ∨ ∃ n ∈ new, gameEventRow pg n = some row := by
  rw [Tables.store] at h
  exact (List.mem_append.mp h).imp_right List.mem_filterMap.mp

/-- Every accepted event of a batch that has committed is there, stored now or earlier. -/
theorem eventId_mem_store (hvalid : validateEvents L 0 raws = some (accepted, rejected))
    (hcommits : Commits pg reachable db.toTables accepted) (hn : n ∈ accepted) :
    n.eventId ∈ (db.toTables.store pg (newEvents db.toTables accepted)).eventIds := by
  have hids : ((newEvents db.toTables accepted).filterMap (gameEventRow pg)).map
      GameEventRow.eventId = (newEvents db.toTables accepted).map NormalizedEvent.eventId :=
    map_eventId_rows (isSome_gameEventRow_of_commits hcommits)
      fun e he => canonical_of_validateEvents hvalid e (firstNew_sublist.mem he)
  rw [Tables.eventIds, Tables.store, List.map_append, hids, List.mem_append]
  exact mem_known_or hn

end Stored

/-! ### The receiver's answers -/

/-- The id and the time of a request, as the sender makes them: the receiver takes them for what
they are. -/
structure Label (J : JsonText) (L : Libraries) extends Stamp J where
  isUUID : L.isUUID batchId = true
  isISO8601 : L.isISO8601 false sentAt = true

section Receive

variable {J : JsonText} {L : Libraries} {pg : Postgres} {reachable : Bool}
  {refusal : Option Refusal} {es : List Event} {db : Database}

/-- A request of the sender has the structure of a batch; its events reach the service one by
one, copied. -/
theorem holds_of_label (label : Label J L) (hcount : 1 ≤ es.length ∧ es.length ≤ 500) {dto : Json}
    (hcopy : L.plainToInstance (batchJson label.batchId label.sentAt (es.map Event.value))
      = some dto) :
    eventBatchRequestDto.holds L.toStringChecks dto ∧
      dto.get? (js "batch_id") = some (.str label.batchId) ∧
      dto.get? (js "events") = some (.arr ((es.map Event.value).map L.copyOf)) := by
  have hkeys : ∀ key ∈ [js "batch_id", js "sent_at", js "events"],
      decide (key ∉ inheritedNames) = true := by decide +kernel
  simp only [List.forall_mem_cons, decide_eq_true_iff] at hkeys
  have hstr : ∀ s, L.copyOf (.str s) = .str s := by
    intro s
    have hcopied := L.copied_copyOf (.str s)
    generalize L.copyOf (.str s) = copy at hcopied
    cases hcopied
    rfl
  have hbatchId : dto.get? (js "batch_id") = some (.str label.batchId) :=
    (L.get?_plainToInstance _ _ _ hcopy hkeys.1).trans (congrArg some (hstr _))
  have hsentAt : dto.get? (js "sent_at") = some (.str label.sentAt) :=
    (L.get?_plainToInstance _ _ _ hcopy hkeys.2.1).trans (congrArg some (hstr _))
  have hevents : dto.get? (js "events") = some (.arr ((es.map Event.value).map L.copyOf)) :=
    (L.get?_plainToInstance _ _ _ hcopy hkeys.2.2.1).trans (congrArg some (L.copyOf_arr _))
  refine ⟨?_, hbatchId, hevents⟩
  simp only [eventBatchRequestDto, Dto.holds_cons, Dto.holds_nil, List.forall_mem_cons,
    List.not_mem_nil, false_imp_iff, implies_true, and_true, Constraint.holds, hbatchId, hsentAt,
    hevents, string?, array?, Option.any_some, Option.isSome_some, Bool.and_eq_true,
    decide_eq_true_iff, true_and, List.length_map]
  exact ⟨label.isUUID, label.isISO8601, hcount⟩

/-- The batch was answered 200, and its transaction has committed. -/
structure Committed (J : JsonText) (L : Libraries) (pg : Postgres) (es : List Event)
    (db : Database) (r : HttpResponse) (db' : Tables) : Prop where
  status : r.status = 200
  size : batchBodyByteLength J (es.map Event.value) ≤ MAX_BODY_BYTES
  served : ∃ (accepted : List NormalizedEvent) (response : EventBatchResponse) (reachable : Bool),
    validateEvents L 0 ((es.map Event.value).map L.copyOf) = some (accepted, response.rejected) ∧
    Commits pg reachable db.toTables accepted ∧ r.body = J.stringify response.toJson ∧
    db' = db.toTables.store pg (newEvents db.toTables accepted)

theorem tooLarge_serializeBatch (label : Label J L) :
    (Content.json (serializeBatch J label.batchId label.sentAt (es.map Event.value))).TooLarge ↔
      MAX_BODY_BYTES < batchBodyByteLength J (es.map Event.value) := by
  rw [Content.tooLarge_json, length_serializeBatch label.toStamp]

/-- **How the receiver answers a batch**: too long, or refused or failed and never malformed, or
committed. -/
theorem receive_batch (label : Label J L) (hcount : 1 ≤ es.length ∧ es.length ≤ 500)
    {r : HttpResponse} {db' : Tables}
    (h : receive J L pg reachable refusal
      (.json (serializeBatch J label.batchId label.sentAt (es.map Event.value)))
        db.toTables = (r, db')) :
    (r.status = 413 ∧ MAX_BODY_BYTES < batchBodyByteLength J (es.map Event.value) ∧
      db' = db.toTables) ∨
    (r.status ∉ [200, 400, 413] ∧ db' = db.toTables) ∨ Committed J L pg es db r db' := by
  rw [receive, parseBody_serializeBatch, if_congr (tooLarge_serializeBatch label) rfl rfl] at h
  split_ifs at h with hsize
  · obtain ⟨rfl, rfl⟩ := Prod.mk.inj h
    exact .inl ⟨rfl, hsize, rfl⟩
  right
  -- what the guard or the limiter refuses reaches no table
  cases refusal with
  | some refusal =>
    obtain ⟨rfl, rfl⟩ := Prod.mk.inj h
    refine .inl ⟨?_, rfl⟩
    cases refusal <;> simp [Refusal.response, respond]
  | none =>
    simp only [handle] at h
    cases hcopy : L.plainToInstance (batchJson label.batchId label.sentAt (es.map Event.value)) with
    | none =>
      rw [hcopy] at h
      obtain ⟨rfl, rfl⟩ := Prod.mk.inj h
      exact .inl ⟨by simp [unexpected, respond], rfl⟩
    | some dto =>
      obtain ⟨hholds, hbatchId, hevents⟩ := holds_of_label label hcount hcopy
      have hsync : (L.validateSync eventBatchRequestDto dto).isEmpty = true :=
        isEmpty_validateSync.mpr hholds
      simp only [hcopy, hsync, hbatchId, hevents, string?, array?, Bool.not_true,
        Bool.false_eq_true, if_false] at h
      obtain ⟨hr, hdb⟩ := Prod.mk.inj h
      -- an exception of the validation is a 500
      cases hvalid : validateEvents L 0 ((es.map Event.value).map L.copyOf) with
      | none =>
        rw [ingest, hvalid] at hr hdb
        subst hr hdb
        exact .inl ⟨by simp [answerResponse, unexpected, respond], rfl⟩
      | some result =>
        obtain ⟨accepted, rejected⟩ := result
        by_cases hcommits : Commits pg reachable db.toTables accepted
        · rw [ingest_of_commits hvalid hcommits] at hr hdb
          subst hr hdb
          exact .inr ⟨rfl, Nat.le_of_not_lt hsize, accepted, _, reachable, hvalid, hcommits, rfl,
            rfl⟩
        · rw [ingest_of_not_commits hvalid hcommits] at hr hdb
          subst hr hdb
          exact .inl ⟨by simp [answerResponse, respond], rfl⟩

theorem Committed.subset {r : HttpResponse} {db' : Tables} (h : Committed J L pg es db r db') :
    db.gameEvents ⊆ db'.gameEvents := by
  obtain ⟨accepted, response, reachable, -, -, -, rfl⟩ := h.served
  exact List.subset_append_left _ _

/-- The rows that a batch adds are made from its events, and from none that is doomed. -/
theorem Committed.rows {r : HttpResponse} {db' : Tables} (h : Committed J L pg es db r db')
    {row : GameEventRow} (hrow : row ∈ db'.gameEvents) :
    row ∈ db.gameEvents ∨ ∃ e ∈ es, RowOf L pg e row ∧ ¬Doomed J L e := by
  obtain ⟨accepted, response, reachable, hvalid, -, -, rfl⟩ := h.served
  refine (mem_gameEvents_store _ _ hrow).imp_right fun hnew => ?_
  obtain ⟨n, hn, hbound⟩ := hnew
  have haccepted := firstNew_sublist.mem hn
  rw [accepted_eq hvalid] at haccepted
  obtain ⟨raw, hraw, hevent⟩ := List.mem_filterMap.mp haccepted
  obtain ⟨value, hvalue, rfl⟩ := List.mem_map.mp hraw
  obtain ⟨e, he, rfl⟩ := List.mem_map.mp hvalue
  refine ⟨e, he, ⟨n, hevent, hbound⟩, ?_⟩
  rintro (hnone | hsize)
  · rw [normalized?, hevent] at hnone
    cases hnone
  · have hle := batchBodyByteLength_singleton_le (J := J)
      (List.mem_map_of_mem (f := Event.value) he)
    exact absurd (hsize.trans_le (hle.trans h.size)) (lt_irrefl _)

end Receive

/-! ### What an answer says -/

/-- No two events have the same id. -/
def DistinctIds (es : List Event) : Prop := (es.map rowId).Nodup

theorem DistinctIds.eq {es : List Event} (h : DistinctIds es) {e e' : Event} (he : e ∈ es)
    (he' : e' ∈ es) (hid : rowId e = rowId e') : e = e' := List.inj_on_of_nodup_map h he he' hid

/-- An answer to a batch says nothing wrong about its events. It never calls the batch malformed,
a 413 is about its size, and a 200 rejects events that are not accepted and has stored the
others. -/
structure Truthful (J : JsonText) (L : Libraries) (pg : Postgres) (es : List Event) (db : Tables)
    (r : HttpResponse) : Prop where
  wellFormed : r.status ≠ 400
  size : r.status = 413 → MAX_BODY_BYTES < batchBodyByteLength J (es.map Event.value)
  ok : r.status = 200 → ∃ response : EventBatchResponse, r.body = J.stringify response.toJson ∧
    ∀ k e, es[k]? = some e →
      (k ∈ response.rejected.map RejectedEvent.index ∧ normalized? L e = none) ∨
      (k ∉ response.rejected.map RejectedEvent.index ∧
        ∃ row ∈ db.gameEvents, RowOf L pg e row)

section Truth

variable {J : JsonText} {L : Libraries} {pg : Postgres} {es offered : List Event}
  {db db' : Tables} {r : HttpResponse}

/-- Rows stay. -/
theorem Truthful.mono (h : Truthful J L pg es db r) (hrows : db.gameEvents ⊆ db'.gameEvents) :
    Truthful J L pg es db' r where
  wellFormed := h.wellFormed
  size := h.size
  ok := by
    intro hstatus
    obtain ⟨response, hbody, hevents⟩ := h.ok hstatus
    refine ⟨response, hbody, fun k e he => (hevents k e he).imp_right fun hstored => ?_⟩
    obtain ⟨hk, row, hrow, hof⟩ := hstored
    exact ⟨hk, row, hrows hrow, hof⟩

/-- An event whose id is in the tables is stored: no other event has this id. -/
theorem exists_row_of_eventId (hdistinct : DistinctIds offered)
    (hrows : ∀ row ∈ db.gameEvents, ∃ e ∈ offered, RowOf L pg e row) {e : Event}
    (he : e ∈ offered) (hid : rowId e ∈ db.eventIds) : ∃ row ∈ db.gameEvents, RowOf L pg e row := by
  obtain ⟨row, hrow, hrowId⟩ := List.mem_map.mp hid
  obtain ⟨e', he', hof⟩ := hrows row hrow
  obtain rfl : e' = e := hdistinct.eq he' he (hof.eventId.symm.trans hrowId)
  exact ⟨row, hrow, hof⟩

/-- **The receiver is truthful.** -/
theorem truthful_receive {db : Database} {reachable : Bool} {refusal : Option Refusal}
    (label : Label J L) (hcount : 1 ≤ es.length ∧ es.length ≤ 500)
    (h : receive J L pg reachable refusal
      (.json (serializeBatch J label.batchId label.sentAt (es.map Event.value)))
        db.toTables = (r, db'))
    (hdistinct : DistinctIds offered) (hes : es ⊆ offered)
    (hrows : ∀ row ∈ db'.gameEvents, ∃ e ∈ offered, RowOf L pg e row) :
    Truthful J L pg es db' r := by
  rcases receive_batch label hcount h with ⟨hstatus, hsize, -⟩ | ⟨hstatus, -⟩ | hcommitted
  · exact ⟨by simp [hstatus], fun _ => hsize, fun h200 => by simp [hstatus] at h200⟩
  · simp only [List.mem_cons, List.not_mem_nil, or_false, not_or] at hstatus
    exact ⟨hstatus.2.1, fun h413 => absurd h413 hstatus.2.2, fun h200 => absurd h200 hstatus.1⟩
  · have h200 := hcommitted.status
    obtain ⟨accepted, response, reachable', hvalid, hcommits, hbody, rfl⟩ := hcommitted.served
    refine ⟨by simp [h200], fun h413 => by simp [h200] at h413, fun _ => ⟨response, hbody, ?_⟩⟩
    intro k e he
    have hraw : ((es.map Event.value).map L.copyOf)[k]? = some (L.copyOf e.value) := by
      simp [he]
    have hindex := index_mem_rejected hvalid hraw
    rw [Nat.zero_add] at hindex
    cases hn : normalized? L e with
    | none => exact .inl ⟨hindex.mpr hn, rfl⟩
    | some n =>
      refine .inr ⟨fun hmem => ?_, ?_⟩
      · have hnone : normalized? L e = none := hindex.mp hmem
        rw [hn] at hnone
        cases hnone
      · have haccepted : n ∈ accepted := by
          rw [accepted_eq hvalid]
          exact List.mem_filterMap.mpr ⟨_, List.mem_of_getElem? hraw, hn⟩
        have hid := eventId_mem_store hvalid hcommits haccepted
        rw [eventId_of_normalized hn] at hid
        exact exists_row_of_eventId hdistinct hrows (hes (List.mem_of_getElem? he)) hid

end Truth

end Pipeline
